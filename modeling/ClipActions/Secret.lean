import ClipActions.Text.Blank

/-!
Secrets in texts: API keys, bearer tokens and JSON web tokens. Each kind is a pattern of words and
runs. Redaction puts a mask in place of every match, one kind after another.
-/
namespace ClipActions.Secret

/-- A piece of a pattern: a fixed word, or a run of code points of a class. -/
inductive Piece where
  | word (t : Text)
  | run (accepts : Symbol → Bool) (least : Nat)

/-- How many code points a piece takes from the beginning of a text; a run takes all it can. -/
def Piece.take? : Piece → Text → Option Nat
  | word w, t => if Text.startsWith w t then some w.length else none
  | run accepts least, t =>
    let n := (t.takeWhile accepts).length
    if least ≤ n then some n else none

/-- A kind of secret and what is put in its place. -/
structure Pattern where
  pieces : List Piece
  mask : Text

/--
The length of the match at the beginning of a text. No run of a pattern accepts the code point that
its next piece begins with, so taking all of each run misses no match.
-/
def matchLength? : List Piece → Text → Option Nat
  | [], _ => some 0
  | piece :: pieces, t => do
    let n ← piece.take? t
    let m ← matchLength? pieces (t.drop n)
    return n + m

/-- Every match of a pattern is masked, from the left; `skip` code points belong to a match. -/
def maskFrom (pattern : Pattern) : Nat → Text → Text
  | _, [] => []
  | skip + 1, _ :: rest => maskFrom pattern skip rest
  | 0, c :: rest =>
    match matchLength? pattern.pieces (c :: rest) with
    | some n => pattern.mask ++ maskFrom pattern (n - 1) rest
    | none => c :: maskFrom pattern 0 rest

def Pattern.redact (pattern : Pattern) (t : Text) : Text := maskFrom pattern 0 t

/-- Letters, digits, the underscore and the dash. -/
def isKeySymbol (s : Symbol) : Bool :=
  s.isAsciiLetter || s.isAsciiDigit || s = .char '_' || s = .char '-'

/-- The symbols of keys and the point. -/
def isTokenSymbol (s : Symbol) : Bool := isKeySymbol s || s = .char '.'

def keyMask : Text := "[REDACTED_API_KEY]"

/-- Keys that begin with `sk-ant-`. -/
def vendorKey : Pattern := ⟨[.word "sk-ant-", .run isKeySymbol 10], keyMask⟩

/-- Keys that begin with `sk-`. -/
def apiKey : Pattern := ⟨[.word "sk-", .run isKeySymbol 10], keyMask⟩

def bearer : Pattern :=
  ⟨[.word "Bearer", .run Symbol.isBlank 1, .run isTokenSymbol 20], "Bearer [REDACTED_TOKEN]"⟩

def webToken : Pattern :=
  ⟨[.word "eyJ", .run isKeySymbol 1, .word ".eyJ", .run isKeySymbol 1, .word ".",
    .run isKeySymbol 1], "[REDACTED_JWT]"⟩

def patterns : List Pattern := [vendorKey, apiKey, bearer, webToken]

/-- A text without its secrets. -/
def redact (t : Text) : Text := patterns.foldl (fun t pattern => pattern.redact t) t

end ClipActions.Secret
