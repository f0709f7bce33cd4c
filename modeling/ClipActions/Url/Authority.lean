import ClipActions.Runtime
import ClipActions.Url.Address

/-!
The authority of a URL: the text between two slashes and the first slash, question mark or number
sign, in which user data, a host and a number after a colon are told apart.
-/
namespace ClipActions.Url

/-- Controls and spaces before a URL do not count, nor do tabs and line ends anywhere in it. -/
def clean (t : Text) : Text :=
  (t.dropWhile (·.code ≤ 0x20)).filter fun s =>
    s ≠ .char '\t' ∧ s ≠ .char '\r' ∧ s ≠ .char '\n'

def isSchemeSymbol (s : Symbol) : Bool :=
  s.isAsciiLetter || s.isAsciiDigit || s = .char '+' || s = .char '-' || s = .char '.'

/-- What follows the scheme, or the whole text if it has none. -/
def afterScheme (t : Text) : Text :=
  match t.cut (.char ':') with
  | (scheme, some rest) =>
    if scheme.head?.any Symbol.isAsciiLetter && scheme.all isSchemeSymbol then rest else t
  | _ => t

def endsAuthority (s : Symbol) : Bool := s = .char '/' || s = .char '?' || s = .char '#'

/-- The authority of a URL; empty if two slashes do not begin it. -/
def authority (url : Text) : Text :=
  match afterScheme (clean url) with
  | .char '/' :: .char '/' :: rest => rest.takeWhile (!endsAuthority ·)
  | _ => []

/-- The code points that compatibility normalization turns into texts with one of `/?#@:`. -/
def disguised : List Nat := [
  0x2047, 0x2048, 0x2049, 0x2100, 0x2101, 0x2105, 0x2106, 0x2A74, 0xFE13, 0xFE16, 0xFE55, 0xFE56,
  0xFE5F, 0xFE6B, 0xFF03, 0xFF0F, 0xFF1A, 0xFF1F, 0xFF20]

/-- A host as it is written, whether brackets enclose it, and the text of the number after it. -/
structure Place where
  host : Text
  /-- What stands after the colon; empty if there is no colon. -/
  number : Text
  /-- What stands before an opening bracket, if there is one. -/
  before : Option Text
  /-- What stands between the closing bracket and the colon. -/
  after : Text
  deriving DecidableEq, Repr

/-- The place that an authority names, which is all of it after the last at sign. -/
def place (authority : Text) : Place :=
  let written := authority.afterLast (.char '@')
  match written.cut (.char '[') with
  | (before, some bracketed) =>
    let (host, rest) := bracketed.cut (.char ']')
    let (after, number) := (rest.getD []).cut (.char ':')
    { host, number := number.getD [], before := some before, after }
  | (_, none) =>
    let (host, number) := written.cut (.char ':')
    { host, number := number.getD [], before := none, after := [] }

/-- What stands between the first opening bracket of an authority and the first closing one behind it,
or its end. -/
def firstBracketed (authority : Text) : Text :=
  (((authority.cut (.char '[')).2.getD []).cut (.char ']')).1

/-- Whether the brackets of an authority stand where a rule lets them. -/
def bracketsOk (rule : BracketRule) (authority : Text) : Bool :=
  match authority.contains (.char '['), authority.contains (.char ']') with
  | false, false => true
  | true, true =>
    match rule with
    | .pair => isBracketed (firstBracketed authority)
    | .host =>
      let p := place authority
      p.before.all (·.isEmpty) && p.after.isEmpty && isBracketed p.host
  | _, _ => false

/-- Whether an authority hides none of the code points that divide a URL. -/
def undisguised (authority : Text) : Bool := !authority.any fun s => disguised.contains s.code

/-- The number after the colon has at most this many digits. -/
def maxDigits : Nat := 4300

/-- Whether the text after the colon is empty or a number of at most 65535. -/
def numberOk (number : Text) : Bool :=
  number.isEmpty || (number.length ≤ maxDigits && (decimal? number).any (· ≤ 65535))

/-- A host in lower case; a zone is kept as it is. -/
def foldHost (host : Text) : Text :=
  Text.asciiLower (host.takeWhile (· ≠ .char '%')) ++ host.dropWhile (· ≠ .char '%')

variable [Runtime]

/-- The host of a URL that can be read. -/
def host? (url : Text) : Option Text :=
  let a := authority url
  let p := place a
  if bracketsOk Runtime.brackets a && undisguised a && numberOk p.number && !p.host.isEmpty then
    some (foldHost p.host)
  else none

end ClipActions.Url
