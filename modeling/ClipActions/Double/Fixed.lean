import ClipActions.Double.Shortest

/-!
The text of a floating-point number with a given number of digits, for the places of a log message:
after the point, after the first digit of a number with an exponent, or in all. The digits are those
of the nearest such decimal, of two that are equally near those of the even one.
-/
namespace ClipActions
namespace Double

/-- How the digits of a number are laid out, and what their count counts. -/
inductive Layout where
  /-- Positional; the count is of digits after the point. -/
  | positional
  /-- With an exponent; the count is of digits after the point. -/
  | scientific
  /-- Either, by the size of the number; the count is of significant digits. -/
  | general
  deriving DecidableEq, Repr

/-- A value `m * 2 ^ e` as a quotient. -/
def quotient (m : Nat) (e : Int) : Nat × Nat := (m * pow2 e, pow2 (-e))

/-- A text of digits with a point in it; without digits after it the point stands if it has to. -/
def pointed (always : Bool) (whole fraction : Text) : Text :=
  if fraction.isEmpty && !always then whole else whole ++ "." ++ fraction

/-- No number has a digit other than zero further behind the point. -/
def mostPlaces : Nat := 1074

/-- No number has more digits from its first one to its last one. -/
def mostDigits : Nat := 767

/-- A value with `places` digits after the point. -/
def positional (always : Bool) (places m : Nat) (e : Int) : Text :=
  let (a, b) := quotient m e
  let exact := min places mostPlaces
  let ds := (Text.ofNat (roundDiv (a * Nat.pow 10 exact) b)).padZeros (exact + 1)
  pointed always (ds.take (ds.length - exact))
    (ds.drop (ds.length - exact) ++ Text.zeros (places - exact))

/-- The first `count` digits of a value, rounded, and the decimal exponent of the first one. -/
def significant (count m : Nat) (e : Int) : Text × Int :=
  if m = 0 then (Text.zeros count, 0)
  else
    let (a, b) := quotient m e
    let top := magnitude a b
    let (num, den) := scale a b (count - top)
    let digits := roundDiv num den
    if digits < Nat.pow 10 count then (Text.ofNat digits, top - 1)
    else (Text.ofNat (digits / 10), top)

/-- A value with one digit before the point, `places` digits after it and an exponent. -/
def scientific (always : Bool) (places m : Nat) (e : Int) : Text :=
  let exact := min (places + 1) mostDigits
  let (ds, exponent) := significant exact m e
  pointed always (ds.take 1) (ds.drop 1 ++ Text.zeros (places + 1 - exact)) ++ exponentText exponent

/--
A value with `count` significant digits: positional if the decimal exponent is at least -4 and less
than the count. Zeros at the end are left out, unless the point always stands.
-/
def general (always : Bool) (count m : Nat) (e : Int) : Text :=
  let exact := min count mostDigits
  let (ds, exponent) := significant exact m e
  let kept (fraction : Text) :=
    if always then fraction ++ Text.zeros (count - exact) else fraction.dropTail (· = .char '0')
  if exponent < -4 ∨ (count : Int) ≤ exponent then
    pointed always (ds.take 1) (kept (ds.drop 1)) ++ exponentText exponent
  else if exponent < 0 then
    pointed always "0" (kept (Text.zeros (-exponent - 1).toNat ++ ds))
  else
    let whole := exponent.toNat + 1
    pointed always (ds.take whole) (kept (ds.drop whole))

/-- The text of a number in a layout with a count of digits; a general one has at least one. -/
def written (layout : Layout) (always : Bool) (count : Nat) (x : Double) : Text :=
  match x.parts with
  | .finite negative m e =>
    let body := match layout with
      | .positional => positional always count m e
      | .scientific => scientific always count m e
      | .general => general always (max count 1) m e
    if negative then "-" ++ body else body
  | _ => x.text

end Double
end ClipActions
