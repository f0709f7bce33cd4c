import ClipActions.Text.Basic

/-! Positional notation of natural numbers. -/
namespace ClipActions
namespace Radix

private def collect (base : Nat) : Nat → Nat → List Nat → List Nat
  | 0, n, low => n :: low
  | fuel + 1, n, low =>
    if n < base then n :: low else collect base fuel (n / base) (n % base :: low)

/-- The digits of a number, the most significant first. Zero has one digit. -/
def digits (base n : Nat) : List Nat := collect base n n []

/-- The value of a list of digits, the most significant first. -/
def value (base : Nat) (ds : List Nat) : Nat := ds.foldl (fun n d => n * base + d) 0

private theorem collect_lt {base : Nat} (hb : 2 ≤ base) (fuel n : Nat) (low : List Nat)
    (hn : n ≤ fuel) (hl : ∀ d ∈ low, d < base) : ∀ d ∈ collect base fuel n low, d < base := by
  induction fuel generalizing n low with
  | zero =>
    obtain rfl : n = 0 := by omega
    simpa [collect] using ⟨by omega, hl⟩
  | succ fuel ih =>
    rw [collect]
    split
    · simpa using ⟨by omega, hl⟩
    · have hd : n / base < n := Nat.div_lt_self (by omega) (by omega)
      refine ih (n / base) _ (by omega) ?_
      simpa using ⟨Nat.mod_lt n (by omega), hl⟩

private theorem collect_head {base : Nat} (hb : 2 ≤ base) (fuel n : Nat) (low : List Nat)
    (hn : n ≤ fuel) (h0 : n ≠ 0) : ∃ d ds, collect base fuel n low = d :: ds ∧ d ≠ 0 := by
  induction fuel generalizing n low with
  | zero => omega
  | succ fuel ih =>
    rw [collect]
    split
    · exact ⟨n, low, rfl, h0⟩
    · have hd : n / base < n := Nat.div_lt_self (by omega) (by omega)
      have hq : n / base ≠ 0 := by
        have := Nat.div_pos (show base ≤ n by omega) (by omega)
        omega
      exact ih (n / base) _ (by omega) hq

private theorem value_collect {base : Nat} (hb : 2 ≤ base) (fuel n : Nat) (low : List Nat)
    (hn : n ≤ fuel) : value base (collect base fuel n low) = low.foldl (fun k d => k * base + d) n := by
  induction fuel generalizing n low with
  | zero =>
    obtain rfl : n = 0 := by omega
    simp [collect, value]
  | succ fuel ih =>
    rw [collect]
    split
    · simp [value]
    · have hd : n / base < n := Nat.div_lt_self (by omega) (by omega)
      rw [ih (n / base) _ (by omega), List.foldl_cons, Nat.div_add_mod']

theorem digits_lt {base : Nat} (hb : 2 ≤ base) (n : Nat) : ∀ d ∈ digits base n, d < base :=
  collect_lt hb n n [] (Nat.le_refl n) (by simp)

/-- No superfluous zero begins the digits of a number. -/
theorem digits_eq_cons {base : Nat} (hb : 2 ≤ base) {n : Nat} (h0 : n ≠ 0) :
    ∃ d ds, digits base n = d :: ds ∧ d ≠ 0 :=
  collect_head hb n n [] (Nat.le_refl n) h0

theorem digits_zero (base : Nat) : digits base 0 = [0] := rfl

theorem value_digits {base : Nat} (hb : 2 ≤ base) (n : Nat) : value base (digits base n) = n :=
  value_collect hb n n [] (Nat.le_refl n)

/-- The digits from 0 to 9 and then from a to z. -/
def digit (d : Nat) : Symbol := .char (if d < 10 then Char.ofNat (48 + d) else Char.ofNat (87 + d))

/-- A number written out in a base of at most 36. -/
def write (base n : Nat) : Text := (digits base n).map digit

end Radix

namespace Text

def ofNat (n : Nat) : Text := Radix.write 10 n

/-- A whole number in decimal notation, with a minus sign if it is negative. -/
def ofInt : Int → Text
  | .ofNat n => ofNat n
  | .negSucc n => "-" ++ ofNat (n + 1)

def zeros (count : Nat) : Text := List.replicate count (.char '0')

/-- A text brought to a width by zeros in front of it. -/
def padZeros (width : Nat) (t : Text) : Text := zeros (width - t.length) ++ t

end Text
end ClipActions
