import ClipActions.Json.Basic

/-!
The text of a JSON document. Only quotes, backslashes and controls are escaped; every other code
point stands for itself.
-/
namespace ClipActions.Json

/-- What separates the items of a container and a name from its value. -/
structure Layout where
  item : Text
  name : Text

/-- No blanks at all, as in records of one line. -/
def Layout.compact : Layout := ⟨",", ":"⟩

def Layout.spaced : Layout := ⟨", ", ": "⟩

/-- One code point inside a JSON string. -/
def escapeSymbol (s : Symbol) : Text :=
  if s = .char '"' then "\\\""
  else if s = .char '\\' then "\\\\"
  else if s = .char '\n' then "\\n"
  else if s = .char '\r' then "\\r"
  else if s = .char '\t' then "\\t"
  else if s = .char '\x08' then "\\b"
  else if s = .char '\x0c' then "\\f"
  else if s.code < 0x20 then "\\u" ++ (Radix.write 16 s.code).padZeros 4
  else [s]

def writeString (t : Text) : Text := .char '"' :: t.flatMap escapeSymbol ++ [.char '"']

def writeFloat (x : Double) : Text :=
  match x.parts with
  | .nan => "NaN"
  | .infinite false => "Infinity"
  | .infinite true => "-Infinity"
  | .finite .. => x.text

mutual

/-- The text of a document under a layout. -/
def writeWith (layout : Layout) : Json → Text
  | null => "null"
  | bool b => if b then "true" else "false"
  | int n => Text.ofInt n
  | float x => writeFloat x
  | str t => writeString t
  | arr items => .char '[' :: writeItems layout items
  | obj fields => .char '\x7b' :: writeFields layout fields

def writeItems (layout : Layout) : List Json → Text
  | [] => "]"
  | [j] => writeWith layout j ++ "]"
  | j :: rest => writeWith layout j ++ layout.item ++ writeItems layout rest

def writeFields (layout : Layout) : List (Text × Json) → Text
  | [] => "\x7d"
  | [(name, j)] => writeString name ++ layout.name ++ writeWith layout j ++ "\x7d"
  | (name, j) :: rest =>
    writeString name ++ layout.name ++ writeWith layout j ++ layout.item ++ writeFields layout rest

end

/-- The text of a document without blanks. -/
def write (j : Json) : Text := j.writeWith .compact

mutual

/-- Whether all numbers of a document are finite, as JSON by itself knows no others. -/
def isFinite : Json → Bool
  | float x => match x.parts with
    | .finite .. => true
    | _ => false
  | arr items => areFinite items
  | obj fields => haveFinite fields
  | _ => true

def areFinite : List Json → Bool
  | [] => true
  | j :: rest => isFinite j && areFinite rest

def haveFinite : List (Text × Json) → Bool
  | [] => true
  | (_, j) :: rest => isFinite j && haveFinite rest

end

end ClipActions.Json
