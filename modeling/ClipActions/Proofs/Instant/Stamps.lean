import ClipActions.Proofs.Instant.Calendar
import ClipActions.Proofs.Text.Positional
import Mathlib.Data.List.Forall2

/-!
Points in time as records hold them. From 1970 to the end of the year 9999 the text of a point in time
has one form, says its milliseconds, and comes in the order of time.
-/
namespace ClipActions

/-- A text that has a digit where a pattern has a zero, and elsewhere what the pattern has. -/
def Text.Follows (pattern t : Text) : Prop :=
  List.Forall₂ (fun p s => if p = .char '0' then s.isAsciiDigit = true else s = p) pattern t

/-- A point in time from the beginning of 1970 to the end of the year 9999. -/
def Instant.Dated (i : Instant) : Prop :=
  0 ≤ i.micros ∧ i.micros < Date.count ⟨10000, 1, 1⟩ * 86400000000

namespace Stamp

/-- A number in the text of a point in time: how many digits it has, and what follows them. -/
structure Field where
  width : Nat
  mark : Symbol

variable {fs : List Field} {n width : Nat} {ms ns : List Nat}

/-- Year, month, day, hour, minute, second and millisecond. -/
def layout : List Field :=
  [⟨4, .char '-'⟩, ⟨2, .char '-'⟩, ⟨2, .char 'T'⟩, ⟨2, .char ':'⟩, ⟨2, .char ':'⟩, ⟨2, .char '.'⟩,
    ⟨3, .char 'Z'⟩]

def write : List Field → List Nat → Text
  | f :: fs, n :: ns => Instant.padded f.width n ++ f.mark :: write fs ns
  | _, _ => []

/-- The numbers in the places of fields; none if the text has anything else there or behind them. -/
def read? : List Field → Text → Option (List Nat)
  | [], [] => some []
  | [], _ :: _ => none
  | f :: fs, t => do
    let n ← Radix.number? 10 (t.take f.width)
    let rest ← Text.dropLead? [f.mark] (t.drop f.width)
    let ns ← read? fs rest
    return n :: ns

/-- The milliseconds from the beginning of 1970 to the point in time that a text is; none if the text
has another form, or the calendar no such date, or the day no such time. -/
def millis? (t : Text) : Option Int := do
  match ← read? layout t with
  | [year, month, day, hour, minute, second, milli] =>
    let d : Date := ⟨year, month, day⟩
    if d.Valid ∧ hour < 24 ∧ minute < 60 ∧ second < 60 then
      some (d.count * 86400000 + (hour * 3600000 + minute * 60000 + second * 1000 + milli : Nat))
    else none
  | _ => none

/-- Numbers that have room in their fields. -/
def Fit : List Field → List Nat → Prop := List.Forall₂ fun f n => 0 < f.width ∧ n < 10 ^ f.width

/-- The first number in which two lists differ, if there is one, is greater in the second list. -/
def Upto : List Nat → List Nat → Prop
  | m :: ms, n :: ns => m < n ∨ m = n ∧ Upto ms ns
  | _, _ => True

/-! Numbers in their places. -/

/-- A number with zeros in front of it is one of a fixed count of digits. -/
theorem padded_digits (hw : 0 < width) (hn : n < 10 ^ width) :
    ∃ ds : List Nat, ds.length = width ∧ (∀ d ∈ ds, d < 10) ∧ Radix.value 10 ds = n ∧
      Instant.padded width n = ds.map Radix.digit := by
  have hbase : 2 ≤ 10 := by decide
  have hlen := Text.length_ofNat_le hw hn
  refine ⟨List.replicate (width - (Text.ofNat n).length) 0 ++ Radix.digits 10 n, ?_, ?_, ?_, ?_⟩
  · rw [List.length_append, List.length_replicate]
    rw [Text.ofNat, Radix.write, List.length_map] at hlen ⊢
    omega
  · intro d hd
    rcases List.mem_append.1 hd with h | h
    · rw [List.eq_of_mem_replicate h]
      decide
    · exact Radix.digits_lt hbase n d h
  · rw [Radix.value_zeros, Radix.value_digits hbase]
  · rw [List.map_append, List.map_replicate]
    rfl

theorem read?_write (h : Fit fs ns) : read? fs (write fs ns) = some ns := by
  induction h with
  | nil => rfl
  | @cons f n fs ns hf _ ih =>
    obtain ⟨ds, hlen, hds, hvalue, htext⟩ := padded_digits hf.1 hf.2
    have hmap : (ds.map Radix.digit).length = f.width := by rw [List.length_map, hlen]
    have hne : ds ≠ [] := List.ne_nil_of_length_pos (hlen ▸ hf.1)
    have hnumber : Radix.number? 10 (ds.map Radix.digit) = some n :=
      (Radix.number?_eq_some (by decide)).2 ⟨ds, hne, hds, rfl, hvalue⟩
    rw [write, read?, htext, List.take_left' hmap, List.drop_left' hmap, hnumber]
    simp [Text.dropLead?, ih]

/-- Texts of one layout come in the order of their numbers. -/
theorem le_write (hm : Fit fs ms) (hn : Fit fs ns) :
    Text.le (write fs ms) (write fs ns) = true ↔ Upto ms ns := by
  induction hm generalizing ns with
  | nil =>
    cases hn
    simp [write, Text.le, Upto]
  | @cons f m fs ms hf _ ih =>
    cases hn with
    | @cons _ n _ ns hg hns =>
      obtain ⟨ds, hdlen, hds, hdvalue, hdtext⟩ := padded_digits hf.1 hf.2
      obtain ⟨es, helen, hes, hevalue, hetext⟩ := padded_digits hg.1 hg.2
      have hdigits := Radix.le_digits (by decide) (hdlen.trans helen.symm) hds hes
        (f.mark :: write fs ms) (f.mark :: write fs ns)
      have hmark : Text.le (f.mark :: write fs ms) (f.mark :: write fs ns) = true ↔ Upto ms ns := by
        rw [Text.le_cons, ih hns]
        simp
      rw [write, write, hdtext, hetext, hdigits, hdvalue, hevalue, hmark, Upto]

/-- What a layout looks like with zeros in its fields. -/
def pattern (fs : List Field) : Text := fs.flatMap fun f => Text.zeros f.width ++ [f.mark]

theorem follows_write (hs : ∀ f ∈ fs, f.mark ≠ .char '0') (h : Fit fs ns) :
    Text.Follows (pattern fs) (write fs ns) := by
  induction h with
  | nil => exact .nil
  | @cons f n fs ns hf _ ih =>
    obtain ⟨hmark, hrest⟩ := List.forall_mem_cons.1 hs
    obtain ⟨ds, hlen, hds, -, htext⟩ := padded_digits hf.1 hf.2
    have hdigits : Text.Follows (Text.zeros f.width) (ds.map Radix.digit) := by
      rw [← hlen]
      clear hlen htext
      induction ds with
      | nil => exact .nil
      | cons d ds ihd =>
        obtain ⟨hd, hds⟩ := List.forall_mem_cons.1 hds
        exact .cons (Radix.isAsciiDigit_digit d hd) (ihd hds)
    have hhead : if f.mark = .char '0' then f.mark.isAsciiDigit = true else f.mark = f.mark := by
      rw [if_neg hmark]
    rw [pattern, List.flatMap_cons, List.append_assoc, write, htext]
    exact List.rel_append hdigits (.cons hhead (ih hrest))

end Stamp

namespace Instant

variable {i j : Instant}

def day (i : Instant) : Date := .ofDays (i.micros.fdiv 86400000000)

def milliOfDay (i : Instant) : Nat := i.ofDay / 1000

/-- The numbers that the text of a point in time says. -/
def numbers (i : Instant) : List Nat :=
  [i.day.year, i.day.month, i.day.day, i.milliOfDay / 3600000, i.milliOfDay / 60000 % 60,
    i.milliOfDay / 1000 % 60, i.milliOfDay % 1000]

theorem record_eq (i : Instant) : i.record = Stamp.write Stamp.layout i.numbers := by
  have hhour : i.ofDay / 1000000 / 3600 = i.milliOfDay / 3600000 := by
    rw [milliOfDay]
    omega
  have hminute : i.ofDay / 1000000 / 60 % 60 = i.milliOfDay / 60000 % 60 := by
    rw [milliOfDay]
    omega
  have hsecond : i.ofDay / 1000000 % 60 = i.milliOfDay / 1000 % 60 := by
    rw [milliOfDay]
    omega
  rw [record, toSecond, hhour, hminute, hsecond]
  simp [Stamp.write, Stamp.layout, numbers, Text.ofString, day, milliOfDay]

theorem milliOfDay_lt (i : Instant) : i.milliOfDay < 86400000 := by
  have h := Int.fmod_lt_of_pos i.micros (show (0 : Int) < 86400000000 by decide)
  rw [milliOfDay, ofDay]
  omega

/-! Points in time that have a date. -/

theorem Dated.day_spec (h : i.Dated) :
    i.day.Valid ∧ i.day.count = i.micros / 86400000000 ∧ i.day.year < 10000 := by
  obtain ⟨hlow, hhigh⟩ := h
  have hdays : i.micros.fdiv 86400000000 = i.micros / 86400000000 :=
    Int.fdiv_eq_ediv_of_nonneg _ (by decide)
  have hpos : 0 ≤ i.micros.fdiv 86400000000 := by omega
  obtain ⟨hvalid, hcount⟩ := Date.ofDays_spec hpos
  rw [← day, hdays] at hcount
  rw [← day] at hvalid
  refine ⟨hvalid, hcount, ?_⟩
  have hlater : Date.Valid ⟨10000, 1, 1⟩ := ⟨by decide, by decide, by decide, by decide⟩
  have hbefore := (Date.before_iff hvalid hlater).2 (by omega)
  have hmonth := hvalid.month_pos
  have hday := hvalid.day_pos
  simp only [Date.Before] at hbefore
  omega

theorem Dated.millis_eq (h : i.Dated) : i.millis = i.day.count * 86400000 + i.milliOfDay := by
  have hcount := h.day_spec.2.1
  have hmod : i.micros.fmod 86400000000 = i.micros % 86400000000 :=
    Int.fmod_eq_emod_of_nonneg _ (by decide)
  have hdiv : i.micros.fdiv 1000 = i.micros / 1000 := Int.fdiv_eq_ediv_of_nonneg _ (by decide)
  rw [millis, milliOfDay, ofDay, hmod, hdiv, hcount]
  omega

theorem Dated.fit (h : i.Dated) : Stamp.Fit Stamp.layout i.numbers := by
  obtain ⟨hvalid, -, hyear⟩ := h.day_spec
  have hmonth := hvalid.month_le
  have hday := hvalid.day_le
  have hlength := Date.monthLength_le i.day.year i.day.month
  have hclock := i.milliOfDay_lt
  have hpos : ∀ f ∈ Stamp.layout, 0 < f.width := by decide
  refine .cons ⟨by decide, ?_⟩ <| .cons ⟨by decide, ?_⟩ <| .cons ⟨by decide, ?_⟩ <|
    .cons ⟨by decide, ?_⟩ <| .cons ⟨by decide, ?_⟩ <| .cons ⟨by decide, ?_⟩ <|
    .cons ⟨by decide, ?_⟩ .nil
  all_goals
    dsimp only
    omega

theorem Dated.millis?_record (h : i.Dated) : Stamp.millis? i.record = some i.millis := by
  have hvalid := h.day_spec.1
  have hclock := i.milliOfDay_lt
  have hhour : i.milliOfDay / 3600000 < 24 := by omega
  have hminute : i.milliOfDay / 60000 % 60 < 60 := by omega
  have hsecond : i.milliOfDay / 1000 % 60 < 60 := by omega
  have hsum : i.milliOfDay / 3600000 * 3600000 + i.milliOfDay / 60000 % 60 * 60000 +
      i.milliOfDay / 1000 % 60 * 1000 + i.milliOfDay % 1000 = i.milliOfDay := by omega
  rw [Stamp.millis?, record_eq, Stamp.read?_write h.fit, h.millis_eq]
  simp only [numbers, Option.bind_eq_bind, Option.bind_some]
  rw [if_pos ⟨hvalid, hhour, hminute, hsecond⟩, hsum]

/-- The clock goes by its hours, minutes, seconds and milliseconds. -/
theorem clock_upto (m n : Nat) :
    Stamp.Upto [m / 3600000, m / 60000 % 60, m / 1000 % 60, m % 1000]
      [n / 3600000, n / 60000 % 60, n / 1000 % 60, n % 1000] ↔ m ≤ n := by
  have hminute : ∀ k : Nat, k / 60000 = k / 1000 / 60 := fun k =>
    (Nat.div_div_eq_div_mul k 1000 60).symm
  have hhour : ∀ k : Nat, k / 3600000 = k / 1000 / 60 / 60 := fun k => by
    rw [Nat.div_div_eq_div_mul, Nat.div_div_eq_div_mul]
  rw [hhour, hhour, hminute, hminute]
  simp only [Stamp.Upto, and_true]
  omega

theorem Dated.numbers_upto (hi : i.Dated) (hj : j.Dated) :
    Stamp.Upto i.numbers j.numbers ↔ i.millis ≤ j.millis := by
  have hbefore := Date.before_iff hi.day_spec.1 hj.day_spec.1
  have hsame := Date.count_inj hi.day_spec.1 hj.day_spec.1
  have hparts : i.day = j.day ↔
      i.day.year = j.day.year ∧ i.day.month = j.day.month ∧ i.day.day = j.day.day := by
    cases i.day
    cases j.day
    simp
  have hdate : Stamp.Upto i.numbers j.numbers ↔
      i.day.Before j.day ∨ i.day = j.day ∧ i.milliOfDay ≤ j.milliOfDay := by
    rw [numbers, numbers, Stamp.Upto, Stamp.Upto, Stamp.Upto, clock_upto, hparts, Date.Before]
    omega
  have hleft := i.milliOfDay_lt
  have hright := j.milliOfDay_lt
  rw [hdate, hbefore, ← hsame, hi.millis_eq, hj.millis_eq]
  omega

/-- From 1970 to the end of the year 9999 the text of a point in time has the form of a date and a time
of day with milliseconds, is read back as just the milliseconds that have gone by since the beginning of
1970, and comes before another one just if these are fewer. -/
theorem record_says_millis (hi : i.Dated) (hj : j.Dated) :
    Text.Follows "0000-00-00T00:00:00.000Z" i.record ∧
    Stamp.millis? i.record = some i.millis ∧
    (Text.le i.record j.record = true ↔ i.millis ≤ j.millis) ∧
    (i.record = j.record ↔ i.millis = j.millis) := by
  have hmarks : ∀ f ∈ Stamp.layout, f.mark ≠ .char '0' := by decide
  have hfollows := Stamp.follows_write hmarks hi.fit
  have hle := (Stamp.le_write hi.fit hj.fit).trans (hi.numbers_upto hj)
  have hge := (Stamp.le_write hj.fit hi.fit).trans (hj.numbers_upto hi)
  rw [← record_eq, ← record_eq] at hle hge
  rw [← record_eq] at hfollows
  refine ⟨hfollows, hi.millis?_record, hle, fun h => ?_, fun h => ?_⟩
  · have hread := hi.millis?_record
    rw [h, hj.millis?_record] at hread
    exact (Option.some.inj hread).symm
  · exact Text.le_antisymm (hle.2 h.le) (hge.2 h.ge)

/-- The last millisecond of a leap day, and the midnight behind it. -/
theorem record_says_millis_leap :
    let i : Instant := ⟨951868799999999⟩
    let j : Instant := ⟨951868800000000⟩
    i.Dated ∧ j.Dated ∧ i.record = "2000-02-29T23:59:59.999Z" ∧
      Stamp.millis? i.record = some 951868799999 ∧ Text.le i.record j.record = true ∧
      i.record ≠ j.record := by
  intro i j
  have hend : Date.count ⟨10000, 1, 1⟩ = 2932897 := by
    rw [Date.count, Date.yearStart_epoch, Date.yearStart_succ 9999]
    decide
  have hi : i.Dated := ⟨by decide, by rw [hend]; decide⟩
  have hj : j.Dated := ⟨by decide, by rw [hend]; decide⟩
  obtain ⟨-, hread, hle, hsame⟩ := record_says_millis hi hj
  refine ⟨hi, hj, by decide +kernel, hread, hle.2 (by decide), fun h => ?_⟩
  exact absurd (hsame.1 h) (by decide)

end Instant
end ClipActions
