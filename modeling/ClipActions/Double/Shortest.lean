import ClipActions.Double.Basic
import ClipActions.Radix

/-!
The text of a floating-point number: the fewest digits that read back as the number, of these the
nearest. It is positional for decimal exponents from -4 to 15 and has an exponent otherwise.
-/
namespace ClipActions
namespace Double

/-- A decimal number `digits * 10 ^ exponent`. -/
structure Digits where
  digits : Nat
  exponent : Int
  deriving DecidableEq, Repr

/-- `a / b * 10 ^ k` as a quotient. -/
def scale (a b : Nat) (k : Int) : Nat × Nat :=
  if 0 ≤ k then (a * Nat.pow 10 k.toNat, b) else (a, b * Nat.pow 10 (-k).toNat)

/-- The least `k` with `a / b < 10 ^ k`, for a positive `a`. -/
def magnitude (a b : Nat) : Int :=
  let guess : Int := ((a.log2 : Int) - b.log2) * 30103 / 100000 - 1
  let below (k : Int) : Bool :=
    let (num, den) := scale a b (-k)
    num < den
  ([guess, guess + 1, guess + 2, guess + 3].find? below).getD (guess + 4)

/--
The candidate with `count` digits: of the two neighbours of the value on the grid of that many
digits, the nearer one that reads back. In quarters of the last binary place the value is `4 * m`
and the numbers between `4 * m - low` and `4 * m + 2` read back, the ends if `m` is even.
-/
def candidate (m low : Nat) (a b : Nat) (top : Int) (count : Nat) : Option Digits :=
  let exponent := top - count
  let (num, den) := scale a b (-exponent)
  let floor := num * (4 * m) / den
  let inside (d : Nat) : Bool :=
    let least := num * (4 * m - low)
    let most := num * (4 * m + 2)
    if m % 2 = 0 then least ≤ d * den && d * den ≤ most else least < d * den && d * den < most
  let lower := inside floor
  let upper := inside (floor + 1)
  let twice := 2 * (num * (4 * m))
  let middle := (2 * floor + 1) * den
  if lower && (!upper || twice < middle || (twice == middle && floor % 2 == 0)) then
    some ⟨floor, exponent⟩
  else if upper then some ⟨floor + 1, exponent⟩
  else none

/-- The shortest decimal that reads back as `m * 2 ^ e`, for a positive `m`. -/
def shortest (m : Nat) (e : Int) : Digits :=
  let quarter := e - 2
  let (a, b) := if 0 ≤ quarter then (pow2 quarter, 1) else (1, pow2 (-quarter))
  let low := if m = hiddenBit ∧ e ≠ -1074 then 1 else 2
  let top := magnitude (a * (4 * m)) b
  (((List.range 17).map (· + 1)).findSome? (candidate m low a b top)).getD ⟨m, e⟩

/-- The decimal exponents of the first digit that are written positionally. -/
def isPositional (exponent : Int) : Bool := -4 ≤ exponent && exponent < 16

/-- A decimal exponent as it is written: signed, with at least two digits. -/
def exponentText (exponent : Int) : Text :=
  "e" ++ (if exponent < 0 then "-" else "+") ++ (Text.ofNat exponent.natAbs).padZeros 2

/-- The text of digits `ds` whose first one has the given decimal exponent. -/
def layout (ds : Text) (exponent : Int) : Text :=
  if isPositional exponent then
    if exponent < 0 then "0." ++ Text.zeros (-exponent - 1).toNat ++ ds
    else
      let whole := exponent.toNat + 1
      if ds.length ≤ whole then ds ++ Text.zeros (whole - ds.length) ++ ".0"
      else ds.take whole ++ "." ++ ds.drop whole
  else
    let mantissa := match ds with
      | [] => []
      | [d] => [d]
      | d :: rest => d :: .char '.' :: rest
    mantissa ++ exponentText exponent

def text (x : Double) : Text :=
  match x.parts with
  | .nan => "nan"
  | .infinite negative => if negative then "-inf" else "inf"
  | .finite negative m e =>
    let sign : Text := if negative then "-" else []
    if m = 0 then sign ++ "0.0"
    else
      let d := shortest m e
      let ds := Text.ofNat d.digits
      let exponent := d.exponent + ds.length - 1
      sign ++ layout (ds.dropTail (· = .char '0')) exponent

end Double
end ClipActions
