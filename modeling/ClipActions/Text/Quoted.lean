import ClipActions.Radix
import ClipActions.Text.Printable

/-!
Quoted text: how a text looks inside the shown form of a list or a table. Quotes are single unless
the text holds a single quote and no double one; what cannot be shown is written by its number.
-/
namespace ClipActions.Text

/-- A number in hexadecimal notation, in lower case, with at least `width` digits. -/
def hex (width n : Nat) : Text := (Radix.write 16 n).padZeros width

/-- A code point written by its number, with two, four or eight digits. -/
def byNumber (s : Symbol) : Text :=
  if s.code < 0x100 then "\\x" ++ hex 2 s.code
  else if s.code < 0x10000 then "\\u" ++ hex 4 s.code
  else "\\U" ++ hex 8 s.code

def quoteSymbol (quote : Symbol) (s : Symbol) : Text :=
  if s = quote ∨ s = .char '\\' then [.char '\\', s]
  else if s = .char '\n' then "\\n"
  else if s = .char '\r' then "\\r"
  else if s = .char '\t' then "\\t"
  else if s.isPrintable then [s]
  else byNumber s

/-- The quote that a quoted text uses. -/
def quoteFor (t : Text) : Symbol :=
  if t.contains (.char '\'') && !t.contains (.char '"') then .char '"' else .char '\''

def quoted (t : Text) : Text :=
  let quote := t.quoteFor
  quote :: t.flatMap (quoteSymbol quote) ++ [quote]

/-- A text in which every code point outside ASCII is written by its number. -/
def inAscii (t : Text) : Text := t.flatMap fun s => if s.code < 0x80 then [s] else byNumber s

end ClipActions.Text
