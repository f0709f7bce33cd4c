import ClipActions.Instant

/-!
The calendar. The date of a day is the one date of the Gregorian calendar, with its leap years and the
lengths of its months, that lies so many days after the first of January of 1970.
-/
namespace ClipActions.Date

/-- Every fourth year is a leap year, but of the years that end a century only every fourth. -/
def IsLeap (year : Nat) : Prop := year % 4 = 0 ∧ (year % 100 = 0 → year % 400 = 0)

instance (year : Nat) : Decidable (IsLeap year) := inferInstanceAs (Decidable (_ ∧ _))

def yearLength (year : Nat) : Nat := if IsLeap year then 366 else 365

def monthLength (year : Nat) : Nat → Nat
  | 2 => if IsLeap year then 29 else 28
  | 4 | 6 | 9 | 11 => 30
  | _ => 31

structure Valid (d : Date) : Prop where
  month_pos : 1 ≤ d.month
  month_le : d.month ≤ 12
  day_pos : 1 ≤ d.day
  day_le : d.day ≤ monthLength d.year d.month

instance (d : Date) : Decidable d.Valid :=
  decidable_of_iff
    (1 ≤ d.month ∧ d.month ≤ 12 ∧ 1 ≤ d.day ∧ d.day ≤ monthLength d.year d.month)
    ⟨fun ⟨h, h', k, k'⟩ => ⟨h, h', k, k'⟩, fun ⟨h, h', k, k'⟩ => ⟨h, h', k, k'⟩⟩

/-- The days of the years before a year, from the year 0 on. -/
def yearStart : Nat → Nat
  | 0 => 0
  | year + 1 => yearStart year + yearLength year

/-- The days of the months of a year before a month. -/
def monthStart (year : Nat) : Nat → Nat
  | 0 | 1 => 0
  | month + 2 => monthStart year (month + 1) + monthLength year (month + 1)

/-- How many days of the calendar lie between the first of January of 1970 and a date. -/
def count (d : Date) : Int :=
  ((yearStart d.year + monthStart d.year d.month + d.day : Nat) : Int) - 1 - yearStart 1970

variable {d e : Date} {year month z : Nat}

/-! Years and months in closed form. -/

/-- A year that begins in March is as long as the year in which it ends. -/
theorem daysBeforeMarch_succ (year : Nat) :
    daysBeforeMarch (year + 1) = daysBeforeMarch year + yearLength (year + 1) := by
  have hfour : (year + 1) / 4 = year / 4 + if (year + 1) % 4 = 0 then 1 else 0 := by
    split <;> omega
  have hhundred : (year + 1) / 100 = year / 100 + if (year + 1) % 100 = 0 then 1 else 0 := by
    split <;> omega
  have hfourHundred : (year + 1) / 400 = year / 400 + if (year + 1) % 400 = 0 then 1 else 0 := by
    split <;> omega
  rw [daysBeforeMarch, daysBeforeMarch, yearLength, hfour, hhundred, hfourHundred]
  unfold IsLeap
  by_cases h4 : (year + 1) % 4 = 0
  · by_cases h100 : (year + 1) % 100 = 0
    · by_cases h400 : (year + 1) % 400 = 0
      · simp only [h4, h100, h400, if_true, and_self, implies_true]
        omega
      · simp only [h4, h100, h400, if_true, if_false, forall_const, and_false]
        omega
    · have h400 : (year + 1) % 400 ≠ 0 := by omega
      simp only [h4, h100, h400, if_true, if_false, false_implies, and_self]
      omega
  · have h100 : (year + 1) % 100 ≠ 0 := by omega
    have h400 : (year + 1) % 400 ≠ 0 := by omega
    simp only [h4, h100, h400, if_false, false_and]
    omega

theorem yearStart_succ (year : Nat) : yearStart (year + 1) = daysBeforeMarch year + 366 := by
  induction year with
  | zero => rfl
  | succ year ih =>
    rw [yearStart, ih, daysBeforeMarch_succ]
    omega

/-- A year up to the end of its February. -/
theorem yearStart_march (year : Nat) :
    yearStart year + monthLength year 2 + 31 = daysBeforeMarch year + 60 := by
  cases year with
  | zero => rfl
  | succ year =>
    rw [yearStart_succ, daysBeforeMarch_succ, monthLength, yearLength]
    split <;> omega

/-- The months from March to December, counted from March on. -/
theorem month_march (year : Nat) (h : month < 10) :
    monthStart year (month + 3) = 31 + monthLength year 2 + daysBeforeMonth month ∧
      daysBeforeMonth month + monthLength year (month + 3) = daysBeforeMonth (month + 1) := by
  have hall : month = 0 ∨ month = 1 ∨ month = 2 ∨ month = 3 ∨ month = 4 ∨ month = 5 ∨ month = 6 ∨
      month = 7 ∨ month = 8 ∨ month = 9 := by omega
  rcases hall with rfl | rfl | rfl | rfl | rfl | rfl | rfl | rfl | rfl | rfl <;>
    simp [monthStart, monthLength, daysBeforeMonth]

theorem monthLength_le (year month : Nat) : monthLength year month ≤ 31 := by
  unfold monthLength
  split
  · split <;> decide
  · decide
  · decide
  · decide
  · decide
  · exact Nat.le_refl 31

/-- The days before a year by its place in the cycles of 400, 100 and 4 years. -/
theorem daysBeforeMarch_cycles {era century quad inFour : Nat} (hc : century ≤ 3) (hq : quad ≤ 24)
    (hf : inFour ≤ 3) : daysBeforeMarch (400 * era + 100 * century + 4 * quad + inFour) =
      146097 * era + 36524 * century + 1461 * quad + 365 * inFour := by
  have hfour : (400 * era + 100 * century + 4 * quad + inFour) / 4 =
      100 * era + 25 * century + quad := by omega
  have hhundred : (400 * era + 100 * century + 4 * quad + inFour) / 100 = 4 * era + century := by
    omega
  have hfourHundred : (400 * era + 100 * century + 4 * quad + inFour) / 400 = era := by omega
  rw [daysBeforeMarch, hfour, hhundred, hfourHundred]
  omega

/-! The date of a day. -/

/-- The year that begins in March of a day, counted from the first of March of the year 0, and the day
of that year. -/
def marchDay (z : Nat) : Nat × Nat :=
  let inEra := z % 146097
  let century := min (inEra / 36524) 3
  let inCentury := inEra - century * 36524
  let inCycle := inCentury % 1461
  let inFour := min (inCycle / 365) 3
  (z / 146097 * 400 + century * 100 + inCentury / 1461 * 4 + inFour, inCycle - inFour * 365)

/-- The date of a day of a year that begins in March. -/
def ofMarchDay (year inYear : Nat) : Date :=
  let month := (5 * inYear + 2) / 153
  let day := inYear - daysBeforeMonth month + 1
  if month < 10 then ⟨year, month + 3, day⟩ else ⟨year + 1, month - 9, day⟩

theorem ofDays_eq (days : Int) : ofDays days =
    ofMarchDay (marchDay (days + epoch).toNat).1 (marchDay (days + epoch).toNat).2 := rfl

/-- A day lies in its year, and a year has a day more only if the February at its end is that of a leap
year. -/
theorem marchDay_spec (z : Nat) :
    daysBeforeMarch (marchDay z).1 + (marchDay z).2 = z ∧ (marchDay z).2 ≤ 365 ∧
      ((marchDay z).2 = 365 → IsLeap ((marchDay z).1 + 1)) := by
  obtain ⟨era, inEra, hera, hz⟩ : ∃ era inEra, inEra < 146097 ∧ z = 146097 * era + inEra :=
    ⟨z / 146097, z % 146097, by omega, by omega⟩
  have hdiv : z / 146097 = era := by omega
  have hmod : z % 146097 = inEra := by omega
  -- The last century of an era, and the last year of four, take the day that is left over.
  obtain ⟨century, hcentury⟩ : ∃ century, century = min (inEra / 36524) 3 := ⟨_, rfl⟩
  obtain ⟨inCentury, hin⟩ : ∃ inCentury, inCentury = inEra - century * 36524 := ⟨_, rfl⟩
  obtain ⟨quad, inCycle, hcycle, hquad⟩ :
      ∃ quad inCycle, inCycle < 1461 ∧ inCentury = 1461 * quad + inCycle :=
    ⟨inCentury / 1461, inCentury % 1461, by omega, by omega⟩
  have hquadDiv : inCentury / 1461 = quad := by omega
  have hquadMod : inCentury % 1461 = inCycle := by omega
  obtain ⟨inFour, hfour⟩ : ∃ inFour, inFour = min (inCycle / 365) 3 := ⟨_, rfl⟩
  have hyear : (marchDay z).1 = 400 * era + 100 * century + 4 * quad + inFour := by
    simp only [marchDay, hdiv, hmod, ← hcentury, ← hin, hquadDiv, hquadMod, ← hfour]
    omega
  have hday : (marchDay z).2 = inCycle - inFour * 365 := by
    simp only [marchDay, hmod, ← hcentury, ← hin, hquadMod, ← hfour]
  have hcenturyLe : century ≤ 3 := by omega
  have hfourLe : inFour ≤ 3 := by omega
  have hsplit : inEra = 36524 * century + inCentury := by omega
  have hinLe : inCentury ≤ 36524 := by omega
  have hinLast : inCentury = 36524 → century = 3 := by omega
  have hquadLe : quad ≤ 24 := by omega
  refine ⟨?_, ?_, ?_⟩
  · rw [hyear, hday, daysBeforeMarch_cycles hcenturyLe hquadLe hfourLe]
    omega
  · omega
  · intro hlast
    have hf : inFour = 3 := by omega
    have hc : inCycle = 1460 := by omega
    rw [IsLeap, hyear]
    by_cases hq : quad = 24
    · have := hinLast (by omega)
      omega
    · omega

theorem yearStart_epoch : yearStart 1970 = 719528 := yearStart_succ 1969

/-- A day of a year that begins in March has a date of the calendar, which lies so many days after that
first of March. -/
theorem ofMarchDay_spec {inYear : Nat} (hd : inYear ≤ 365) (hl : inYear = 365 → IsLeap (year + 1)) :
    (ofMarchDay year inYear).Valid ∧
      (ofMarchDay year inYear).count = (daysBeforeMarch year + inYear : Nat) - (epoch : Int) := by
  obtain ⟨month, hmonth⟩ : ∃ month, month = (5 * inYear + 2) / 153 := ⟨_, rfl⟩
  have hstart : daysBeforeMonth month ≤ inYear := by
    rw [daysBeforeMonth]
    omega
  have hend : inYear < daysBeforeMonth (month + 1) := by
    rw [daysBeforeMonth]
    omega
  rw [ofMarchDay, ← hmonth]
  by_cases hm : month < 10
  · rw [if_pos hm]
    obtain ⟨hsum, hlength⟩ := month_march year hm
    have hyear := yearStart_march year
    refine ⟨⟨by dsimp only; omega, by dsimp only; omega, by dsimp only; omega, ?_⟩, ?_⟩
    · dsimp only
      omega
    · rw [count, yearStart_epoch, hsum, epoch]
      dsimp only
      omega
  · rw [if_neg hm]
    have hyear := yearStart_succ year
    have hlate : month = 10 ∨ month = 11 := by omega
    rcases hlate with rfl | rfl
    · -- January
      have hbound : inYear < 337 := hend
      have hlow : 306 ≤ inYear := hstart
      show Valid ⟨year + 1, 1, inYear - 306 + 1⟩ ∧ count ⟨year + 1, 1, inYear - 306 + 1⟩ = _
      refine ⟨⟨Nat.le_refl 1, (by decide : 1 ≤ 12), Nat.le_add_left 1 _, ?_⟩, ?_⟩
      · show inYear - 306 + 1 ≤ 31
        omega
      · rw [count, yearStart_epoch, hyear, epoch, monthStart]
        dsimp only
        omega
    · -- February
      have hlow : 337 ≤ inYear := hstart
      show Valid ⟨year + 1, 2, inYear - 337 + 1⟩ ∧ count ⟨year + 1, 2, inYear - 337 + 1⟩ = _
      refine ⟨⟨(by decide : 1 ≤ 2), (by decide : 2 ≤ 12), Nat.le_add_left 1 _, ?_⟩, ?_⟩
      · show inYear - 337 + 1 ≤ if IsLeap (year + 1) then 29 else 28
        split
        · omega
        · rename_i hcommon
          have : inYear ≠ 365 := fun h => hcommon (hl h)
          omega
      · have hmonth : monthStart (year + 1) 2 = 31 := rfl
        rw [count, yearStart_epoch, hyear, epoch, hmonth]
        dsimp only
        omega

/-- The date of a day from 1970 on is one of the calendar, and lies so many days after the first of
January of 1970. -/
theorem ofDays_spec {days : Int} (h : 0 ≤ days) :
    (ofDays days).Valid ∧ (ofDays days).count = days := by
  obtain ⟨hsum, hle, hleap⟩ := marchDay_spec (days + epoch).toNat
  obtain ⟨hvalid, hcount⟩ := ofMarchDay_spec hle hleap
  rw [ofDays_eq]
  refine ⟨hvalid, ?_⟩
  rw [hcount, hsum]
  have hepoch : 0 ≤ days + (epoch : Int) := by
    have : (0 : Int) ≤ epoch := Int.natCast_nonneg _
    omega
  rw [Int.toNat_of_nonneg hepoch]
  omega

/-! The order of dates. -/

/-- A date is before another one by its year, then by its month, then by its day. -/
def Before (d e : Date) : Prop :=
  d.year < e.year ∨ d.year = e.year ∧ (d.month < e.month ∨ d.month = e.month ∧ d.day < e.day)

theorem yearStart_mono {m n : Nat} (h : m ≤ n) : yearStart m ≤ yearStart n := by
  induction h with
  | refl => exact Nat.le_refl _
  | step _ ih => exact Nat.le_trans ih (Nat.le_add_right _ _)

theorem monthStart_mono (year : Nat) {m n : Nat} (h : m ≤ n) : monthStart year m ≤ monthStart year n := by
  induction h with
  | refl => exact Nat.le_refl _
  | @step n _ ih =>
    refine Nat.le_trans ih ?_
    cases n with
    | zero => exact Nat.le_refl 0
    | succ n => exact Nat.le_add_right _ _

/-- A date lies within its month. -/
theorem Valid.within_month (hd : d.Valid) :
    monthStart d.year d.month + d.day ≤ monthStart d.year (d.month + 1) := by
  obtain ⟨month, hm⟩ : ∃ month, d.month = month + 1 := ⟨d.month - 1, by have := hd.month_pos; omega⟩
  have hday := hd.day_le
  rw [hm] at hday ⊢
  rw [monthStart]
  omega

theorem monthStart_last (year : Nat) : monthStart year 13 = yearLength year := by
  simp only [monthStart, monthLength, yearLength]
  split <;> rfl

/-- A date lies within its year. -/
theorem Valid.within_year (hd : d.Valid) :
    yearStart d.year + monthStart d.year d.month + d.day ≤ yearStart (d.year + 1) := by
  have hmonth := hd.within_month
  have hyear := monthStart_mono d.year (m := d.month + 1) (n := 13) (by have := hd.month_le; omega)
  rw [monthStart_last] at hyear
  rw [yearStart]
  omega

theorem Before.count_lt (hd : d.Valid) (he : e.Valid) (h : d.Before e) : d.count < e.count := by
  have hday := he.day_pos
  rw [count, count]
  rcases h with hy | ⟨hy, hm | ⟨hm, hlt⟩⟩
  · have hwithin := hd.within_year
    have hmono := yearStart_mono (m := d.year + 1) hy
    omega
  · have hwithin := hd.within_month
    have hmono := monthStart_mono d.year (m := d.month + 1) hm
    rw [← hy]
    omega
  · rw [hy, hm]
    omega

theorem before_or_eq (d e : Date) : d.Before e ∨ d = e ∨ e.Before d := by
  obtain ⟨y, m, a⟩ := d
  obtain ⟨y', m', a'⟩ := e
  simp only [Before, Date.mk.injEq]
  omega

/-- The dates of the calendar come in the order of their days. -/
theorem before_iff (hd : d.Valid) (he : e.Valid) : d.Before e ↔ d.count < e.count := by
  refine ⟨Before.count_lt hd he, fun h => ?_⟩
  rcases before_or_eq d e with hbefore | rfl | hbehind
  · exact hbefore
  · omega
  · have := hbehind.count_lt he hd
    omega

theorem count_inj (hd : d.Valid) (he : e.Valid) : d.count = e.count ↔ d = e := by
  refine ⟨fun h => ?_, fun h => h ▸ rfl⟩
  rcases before_or_eq d e with hbefore | heq | hbehind
  · have := hbefore.count_lt hd he
    omega
  · exact heq
  · have := hbehind.count_lt he hd
    omega

end ClipActions.Date
