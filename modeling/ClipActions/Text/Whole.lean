import ClipActions.Text.Blank
import ClipActions.Text.Decimal

/-!
Whole numbers as people type them: white space around, a sign, digits of any script, and single
underscores between digits.
-/
namespace ClipActions.Text

/-- White space around a number; the information separators are none. -/
def isNumberBlank (s : Symbol) : Bool := s.isBlank && !(0x1C ≤ s.code && s.code ≤ 0x1F)

/-- The digits of a number, between which a single underscore may stand. -/
def typedDigits? (t : Text) : Option (List Nat) :=
  let groups := t.splitOn (.char '_')
  if groups.any (·.isEmpty) then none else groups.flatten.mapM Symbol.decimal?

/-- How many digits a typed number may have. -/
def maxTypedDigits : Nat := 4300

def typedNat? (t : Text) : Option Nat := do
  let ds ← typedDigits? t
  if ds.length ≤ maxTypedDigits then some (ds.foldl (fun n d => n * 10 + d) 0) else none

def typedInt? (t : Text) : Option Int :=
  match t.trimBy isNumberBlank with
  | .char '-' :: rest => (typedNat? rest).map fun n => -(n : Int)
  | .char '+' :: rest => (typedNat? rest).map Int.ofNat
  | rest => (typedNat? rest).map Int.ofNat

/-- Whether a text begins with a digit of any script and holds nothing but such digits. -/
def isDigits (t : Text) : Bool := !t.isEmpty && t.all fun s => s.decimal?.isSome

/-- Whether a text looks like a negative number: a dash, and digits or a decimal fraction; one
line feed may end it. -/
def looksNegative (t : Text) : Bool :=
  match t with
  | .char '-' :: rest =>
    let body := if rest.getLast? = some (.char '\n') then rest.dropLast else rest
    match Text.cut (.char '.') body with
    | (digits, none) => isDigits digits
    | (digits, some fraction) => (digits.isEmpty || isDigits digits) && isDigits fraction
  | _ => false

end ClipActions.Text
