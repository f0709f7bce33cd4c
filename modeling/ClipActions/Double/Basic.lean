/-!
Binary floating-point numbers of 64 bits, by their bits. Every result is the number nearest to the
exact one, computed in whole numbers; of two that are equally near the even one is taken.
-/
namespace ClipActions

/-- A floating-point number as its 64 bits: sign, eleven bits of exponent, 52 bits of fraction. -/
structure Double where
  bits : UInt64
  deriving DecidableEq, Repr, Inhabited

/-- The quotient of two numbers, rounded to the nearest whole number, a tie to the even one. -/
def roundDiv (num den : Nat) : Nat :=
  let q := num / den
  let r := num % den
  if den < 2 * r ∨ (2 * r = den ∧ q % 2 = 1) then q + 1 else q

namespace Double

/-- Two to the power of a number; one if it is negative. -/
def pow2 (e : Int) : Nat := Nat.pow 2 e.toNat

/-- The place of the sign. -/
def signBit : Nat := 0x8000000000000000

/-- The leading digit of the fraction, which is not written. -/
def hiddenBit : Nat := 0x10000000000000

/-- What a floating-point number is: a finite one has the value `m * 2 ^ e` under its sign. -/
inductive Parts where
  | nan
  | infinite (negative : Bool)
  | finite (negative : Bool) (m : Nat) (e : Int)
  deriving DecidableEq, Repr

def parts (x : Double) : Parts :=
  let n := x.bits.toNat
  let negative := n / signBit = 1
  let exponent : Nat := n / hiddenBit % 2048
  let fraction := n % hiddenBit
  if exponent = 2047 then if fraction = 0 then .infinite negative else .nan
  else if exponent = 0 then .finite negative fraction (-1074)
  else .finite negative (fraction + hiddenBit) ((exponent : Int) - 1075)

private def signed (negative : Bool) (magnitude : Nat) : Double :=
  ⟨(magnitude + if negative then signBit else 0).toUInt64⟩

def zero (negative : Bool) : Double := signed negative 0

def infinity (negative : Bool) : Double := signed negative 0x7FF0000000000000

def nan : Double := ⟨0x7FF8000000000000⟩

/-- The number nearest to `num / den`; infinity if it lies beyond every finite number. -/
def nearest (negative : Bool) (num den : Nat) : Double :=
  if num = 0 then zero negative
  else
    let guess : Int := (num.log2 : Int) - den.log2
    let below := if 0 ≤ guess then num < den * pow2 guess else num * pow2 (-guess) < den
    let top := if below then guess - 1 else guess
    let unit := max (top - 52) (-1074)
    let m :=
      if 0 ≤ unit then roundDiv num (den * pow2 unit) else roundDiv (num * pow2 (-unit)) den
    signed negative (min ((unit + 1074).toNat * hiddenBit + m) 0x7FF0000000000000)

/-- The number nearest to `digits * 10 ^ exponent`; `digits` has `count` digits. -/
def ofDecimal (negative : Bool) (digits count : Nat) (exponent : Int) : Double :=
  if digits = 0 ∨ count + exponent < -400 then zero negative
  else if 400 < exponent then infinity negative
  else if 0 ≤ exponent then nearest negative (digits * Nat.pow 10 exponent.toNat) 1
  else nearest negative digits (Nat.pow 10 (-exponent).toNat)

/-- The number nearest to `n * 2 ^ e`. -/
private def ofScaled (negative : Bool) (n : Nat) (e : Int) : Double :=
  if 0 ≤ e then nearest negative (n * pow2 e) 1 else nearest negative n (pow2 (-e))

def ofNat (n : Nat) : Double := nearest false n 1

/-- The number nearest to a whole number; infinity if it lies beyond every finite number. -/
def ofInt (n : Int) : Double := nearest (n < 0) n.natAbs 1

def isZero (x : Double) : Bool :=
  match x.parts with
  | .finite _ m _ => m == 0
  | _ => false

def atLeastZero (x : Double) : Bool :=
  match x.parts with
  | .nan => false
  | .infinite negative => !negative
  | .finite negative m _ => !negative || m == 0

def neg (x : Double) : Double := ⟨x.bits ^^^ signBit.toUInt64⟩

/-- The sum, rounded once. -/
def add (x y : Double) : Double :=
  match x.parts, y.parts with
  | .nan, _ | _, .nan => nan
  | .infinite a, .infinite b => if a = b then infinity a else nan
  | .infinite a, _ => infinity a
  | _, .infinite b => infinity b
  | .finite a m d, .finite b n e =>
    let low := min d e
    let scaled (negative : Bool) (m : Nat) (e : Int) : Int :=
      let v : Int := m * pow2 (e - low)
      if negative then -v else v
    let total := scaled a m d + scaled b n e
    if total = 0 then zero (a && b) else ofScaled (total < 0) total.natAbs low

def sub (x y : Double) : Double := add x y.neg

/-- The product, rounded once. -/
def mul (x y : Double) : Double :=
  match x.parts, y.parts with
  | .nan, _ | _, .nan => nan
  | .infinite a, .infinite b => infinity (a != b)
  | .infinite a, .finite b n _ => if n = 0 then nan else infinity (a != b)
  | .finite a m _, .infinite b => if m = 0 then nan else infinity (a != b)
  | .finite a m d, .finite b n e => ofScaled (a != b) (m * n) (d + e)

/-- Whether two numbers are equal as numbers: NaN equals nothing, the two zeros are equal. -/
def same (x y : Double) : Bool :=
  match x.parts, y.parts with
  | .nan, _ | _, .nan => false
  | .infinite a, .infinite b => a == b
  | .finite a m d, .finite b n e => (m == 0 && n == 0) || (a == b && m == n && d == e)
  | _, _ => false

def sameInt (x : Double) (n : Int) : Bool :=
  match x.parts with
  | .finite a m e =>
    let v : Int := if a then -m else m
    if 0 ≤ e then v * pow2 e == n else v == n * pow2 (-e)
  | _ => false

/-- A number that no rounding to a whole number exists for. -/
inductive Unroundable where
  | nan
  | infinity
  deriving DecidableEq, Repr

/-- The nearest whole number, a tie to the even one. -/
def round (x : Double) : Except Unroundable Int :=
  match x.parts with
  | .nan => .error .nan
  | .infinite _ => .error .infinity
  | .finite a m e =>
    let v : Int := if 0 ≤ e then m * pow2 e else roundDiv m (pow2 (-e))
    .ok (if a then -v else v)

/-- The whole number next to a value on the side of zero. -/
def truncate (x : Double) : Except Unroundable Int :=
  match x.parts with
  | .nan => .error .nan
  | .infinite _ => .error .infinity
  | .finite a m e =>
    let v : Int := if 0 ≤ e then m * pow2 e else m / pow2 (-e)
    .ok (if a then -v else v)

/-- The number nearest to the value rounded to one decimal, a tie to the even digit. -/
def roundTenth (x : Double) : Double :=
  match x.parts with
  | .finite a m e =>
    if 0 ≤ e then x else nearest a (roundDiv (m * 10) (pow2 (-e))) 10
  | _ => x

end Double
end ClipActions
