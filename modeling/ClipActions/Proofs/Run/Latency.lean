import ClipActions.Proofs.Json.RoundTrip
import ClipActions.Proofs.Run.Ending

/-!
How long the work of a run took. It is a whole number of milliseconds that floating-point numbers
give, and none of these has more digits than can be read back.
-/
namespace ClipActions

theorem roundDiv_le (num den : Nat) : roundDiv num den ≤ num + 1 := by
  have hq := Nat.div_le_self num den
  unfold roundDiv
  dsimp only
  split <;> omega

namespace Double

variable {x : Double} {negative : Bool} {m : Nat} {e n : Int}

theorem pow2_mono {a b : Int} (h : a ≤ b) : pow2 a ≤ pow2 b :=
  Nat.pow_le_pow_right (by decide) (Int.toNat_le_toNat h)

theorem pow2_add {a b : Int} (ha : 0 ≤ a) (hb : 0 ≤ b) : pow2 (a + b) = pow2 a * pow2 b := by
  unfold pow2
  rw [Int.toNat_add ha hb]
  exact Nat.pow_add 2 a.toNat b.toNat

theorem pow2_lt_ten {k d : Nat} (h : k < d) : pow2 k < Nat.pow 10 d := by
  calc pow2 k = 2 ^ k := rfl
    _ < 2 ^ d := Nat.pow_lt_pow_right (by decide) h
    _ ≤ 10 ^ d := Nat.pow_le_pow_left (by decide) d

theorem parts_lt (hx : x.parts = .finite negative m e) : m < pow2 53 ∧ e ≤ 971 := by
  have hfraction : x.bits.toNat % hiddenBit < hiddenBit := Nat.mod_lt _ (by decide)
  have hexponent : x.bits.toNat / hiddenBit % 2048 < 2048 := Nat.mod_lt _ (by decide)
  have hbound : pow2 53 = hiddenBit + hiddenBit := rfl
  rw [hbound]
  unfold parts at hx
  dsimp only at hx
  split at hx
  · split at hx <;> cases hx
  split at hx
  · cases hx
    omega
  · cases hx
    omega

/-- No number that rounds to a whole one is beyond the greatest exponent. -/
theorem natAbs_le_of_round (hx : x.round = .ok n) : n.natAbs ≤ pow2 1024 := by
  unfold round at hx
  cases hparts : x.parts with
  | nan =>
    rw [hparts] at hx
    cases hx
  | infinite negative =>
    rw [hparts] at hx
    cases hx
  | finite negative m e =>
    obtain ⟨hm, he⟩ := parts_lt hparts
    have hsign : ∀ v : Int, (if negative then -v else v).natAbs = v.natAbs := by
      intro v
      cases negative
      · rfl
      · exact Int.natAbs_neg v
    rw [hparts] at hx
    cases hx
    rw [hsign]
    split
    · calc ((m : Int) * pow2 e).natAbs = m * pow2 e := by
            rw [Int.natAbs_mul, Int.natAbs_natCast, Int.natAbs_natCast]
        _ ≤ pow2 53 * pow2 971 := Nat.mul_le_mul (Nat.le_of_lt hm) (pow2_mono he)
        _ = pow2 1024 := (pow2_add (by decide) (by decide)).symm
    · calc (roundDiv m (pow2 (-e)) : Int).natAbs = roundDiv m (pow2 (-e)) := Int.natAbs_natCast _
        _ ≤ pow2 53 := Nat.le_trans (roundDiv_le m _) hm
        _ ≤ pow2 1024 := pow2_mono (by decide)

end Double

namespace Run

variable {r : Run} {daemon : Bool} {ask : Gate.Asker} {h m : Host} {w : Work}

variable [Runtime]

theorem Worked.latency (hw : r.Worked daemon ask h w m) : w.latency.natAbs ≤ Double.pow2 1024 := by
  obtain ⟨_, c, n, -, -, hwork⟩ := hw
  obtain ⟨start, n₁, -, hwork⟩ := Job.bind_ok hwork
  obtain ⟨ending, n₂, -, hwork⟩ := Job.bind_ok hwork
  obtain ⟨latency, n₃, hsince, hwork⟩ := Job.bind_ok hwork
  cases hwork
  obtain ⟨stop, n₄, -, hround⟩ := Job.bind_ok hsince
  cases hms : (Job.elapsed start stop).round with
  | error u =>
    rw [hms] at hround
    cases hround
  | ok ms =>
    rw [hms] at hround
    cases hround
    exact Double.natAbs_le_of_round hms

/-- Whatever a run comes to, the time that it took can be read back. -/
theorem Ends.latency (he : r.Ends daemon ask h w m) :
    (Text.ofNat w.latency.natAbs).length ≤ Json.maxDigits := by
  have hle : w.latency.natAbs ≤ Double.pow2 1024 := by
    cases he with
    | held => exact Nat.zero_le _
    | unready => exact Nat.zero_le _
    | stopped hw => exact hw.latency
    | undelivered hw => exact hw.latency
    | delivered hw => exact hw.latency
  have hten : Double.pow2 (1024 : Nat) < Nat.pow 10 Json.maxDigits := Double.pow2_lt_ten (by decide)
  exact Text.length_ofNat_le (by decide) (Nat.lt_of_le_of_lt hle hten)

end Run
end ClipActions
