import ClipActions.Double.Shortest
import ClipActions.Instant
import ClipActions.Proofs.Text.Leads
import Mathlib.Algebra.Group.Nat.Defs

/-! The symbols that numbers and points in time are written with. -/
namespace ClipActions

namespace Symbol

/-- A symbol that a JSON string holds as it is, and that no line or quote ends with. -/
def IsMark (s : Symbol) : Prop :=
  0x20 ≤ s.code ∧ s.isLone = false ∧ s ≠ .char '"' ∧ s ≠ .char '\\'

instance (s : Symbol) : Decidable s.IsMark := inferInstanceAs (Decidable (_ ∧ _ ∧ _ ∧ _))

/-- A symbol of a number or of a word that stands for a value. -/
def IsNumeral (s : Symbol) : Prop :=
  s.isAsciiDigit = true ∨ s.isAsciiLetter = true ∨ s = .char '+' ∨ s = .char '-' ∨ s = .char '.'

instance (s : Symbol) : Decidable s.IsNumeral := inferInstanceAs (Decidable (_ ∨ _ ∨ _ ∨ _ ∨ _))

theorem IsNumeral.ne {s r : Symbol} (hs : s.IsNumeral) (hr : ¬ r.IsNumeral) : s ≠ r := by
  rintro rfl
  exact hr hs

theorem IsNumeral.isMark {s : Symbol} (h : s.IsNumeral) : s.IsMark := by
  refine ⟨?_, ?_, h.ne (by decide), h.ne (by decide)⟩
  · rcases h with h | h | rfl | rfl | rfl
    · cases s with
      | lone half => simp [isAsciiDigit, digit?] at h
      | char c =>
        simp only [isAsciiDigit, digit?] at h
        split at h
        · rename_i hc
          have : '0'.toNat ≤ c.toNat := hc.1
          simp only [code]
          exact Nat.le_trans (by decide) this
        · cases h
    · cases s with
      | lone half => simp [isAsciiLetter] at h
      | char c =>
        simp only [isAsciiLetter, Bool.or_eq_true, Bool.and_eq_true, decide_eq_true_eq] at h
        simp only [code]
        rcases h with h | h
        · have : 'a'.toNat ≤ c.toNat := h.1
          exact Nat.le_trans (by decide) this
        · have : 'A'.toNat ≤ c.toNat := h.1
          exact Nat.le_trans (by decide) this
    · decide
    · decide
    · decide
  · cases s with
    | char c => rfl
    | lone half => simp [IsNumeral, isAsciiDigit, digit?, isAsciiLetter] at h

theorem IsNumeral.ascii {s : Symbol} (h : s.IsNumeral) : s.code < 0x80 := by
  rcases h with h | h | rfl | rfl | rfl
  · cases s with
    | lone half => simp [isAsciiDigit, digit?] at h
    | char c =>
      simp only [isAsciiDigit, digit?] at h
      split at h
      · rename_i hc
        have : c.toNat ≤ '9'.toNat := hc.2
        exact Nat.lt_of_le_of_lt this (by decide)
      · cases h
  · cases s with
    | lone half => simp [isAsciiLetter] at h
    | char c =>
      simp only [isAsciiLetter, Bool.or_eq_true, Bool.and_eq_true, decide_eq_true_eq] at h
      rcases h with h | h
      · have : c.toNat ≤ 'z'.toNat := h.2
        exact Nat.lt_of_le_of_lt this (by decide)
      · have : c.toNat ≤ 'Z'.toNat := h.2
        exact Nat.lt_of_le_of_lt this (by decide)
  all_goals decide

end Symbol

namespace Radix

theorem isAsciiDigit_digit : ∀ d < 10, (digit d).isAsciiDigit = true := by decide

theorem digit?_digit : ∀ d < 10, (digit d).digit? = some d := by decide

theorem digit?_some {s : Symbol} {d : Nat} (h : s.digit? = some d) : d < 10 ∧ s = digit d := by
  cases s with
  | lone half => cases h
  | char c =>
    simp only [Symbol.digit?] at h
    split at h
    · rename_i hc
      have hlow : '0'.toNat ≤ c.toNat := hc.1
      have hhigh : c.toNat ≤ '9'.toNat := hc.2
      obtain rfl : c.toNat - '0'.toNat = d := Option.some.inj h
      have hd : c.toNat - '0'.toNat < 10 := by
        have : '9'.toNat = '0'.toNat + 9 := rfl
        omega
      refine ⟨hd, ?_⟩
      rw [digit, if_pos hd]
      have hc : 48 + (c.toNat - '0'.toNat) = c.toNat := Nat.add_sub_cancel' hlow
      rw [hc, Char.ofNat_toNat]
    · cases h

theorem foldl_place (base : Nat) (ds : List Nat) (n : Nat) :
    ds.foldl (fun n d => n * base + d) n = n * base ^ ds.length + value base ds := by
  induction ds generalizing n with
  | nil => simp [value]
  | cons d ds ih =>
    have hvalue : value base (d :: ds) = d * base ^ ds.length + value base ds := by
      rw [value, List.foldl_cons, ih, Nat.zero_mul, Nat.zero_add]
    rw [List.foldl_cons, ih, hvalue, List.length_cons, Nat.pow_succ', Nat.add_mul, Nat.mul_assoc,
      Nat.add_assoc]

theorem value_cons (base d : Nat) (ds : List Nat) :
    value base (d :: ds) = d * base ^ ds.length + value base ds := by
  have h := foldl_place base ds (0 * base + d)
  rw [value, List.foldl_cons, h, Nat.zero_mul, Nat.zero_add]

/-- A number is at least what its leading digit stands for. -/
theorem pow_le_value (base d : Nat) (ds : List Nat) (hd : 0 < d) :
    Nat.pow base ds.length ≤ value base (d :: ds) := by
  rw [value_cons]
  calc Nat.pow base ds.length ≤ d * base ^ ds.length := Nat.le_mul_of_pos_left _ hd
    _ ≤ d * base ^ ds.length + value base ds := Nat.le_add_right _ _

end Radix

namespace Text

variable {P Q : Symbol → Prop} {s : Symbol} {t u : Text} {n : Nat}

/-- A text of symbols of one class alone. -/
def Of (P : Symbol → Prop) (t : Text) : Prop := ∀ s ∈ t, P s

instance [DecidablePred P] (t : Text) : Decidable (t.Of P) :=
  inferInstanceAs (Decidable (∀ s ∈ t, P s))

abbrev OfMarks (t : Text) : Prop := t.Of Symbol.IsMark

abbrev OfNumerals (t : Text) : Prop := t.Of Symbol.IsNumeral

theorem Of.append (ht : t.Of P) (hu : u.Of P) : Of P (t ++ u) := by
  intro s hs
  rcases List.mem_append.1 hs with h | h
  · exact ht s h
  · exact hu s h

theorem Of.cons (hs : P s) (ht : t.Of P) : Of P (s :: t) := by
  intro r hr
  rcases List.mem_cons.1 hr with rfl | h
  · exact hs
  · exact ht r h

theorem Of.sublist (ht : t.Of P) (h : u.Sublist t) : u.Of P := fun s hs => ht s (h.subset hs)

theorem Of.marks (ht : t.OfNumerals) : t.OfMarks := fun s hs => (ht s hs).isMark

theorem mem_ofNat (h : s ∈ ofNat n) : ∃ d < 10, s = Radix.digit d := by
  obtain ⟨d, hd, rfl⟩ := List.mem_map.1 h
  exact ⟨d, Radix.digits_lt (by decide) n d hd, rfl⟩

theorem ofNumerals_ofNat (n : Nat) : (ofNat n).OfNumerals := by
  intro s hs
  obtain ⟨d, hd, rfl⟩ := mem_ofNat hs
  exact (by decide : ∀ d < 10, (Radix.digit d).IsNumeral) d hd

theorem ofNumerals_ofInt (n : Int) : (ofInt n).OfNumerals := by
  cases n with
  | ofNat n => exact ofNumerals_ofNat n
  | negSucc n => exact .append (by decide) (ofNumerals_ofNat (n + 1))

theorem ofNat_ne_nil (n : Nat) : ofNat n ≠ [] := by
  have h : Radix.digits 10 n ≠ [] := by
    by_cases h0 : n = 0
    · subst h0
      simp [Radix.digits_zero]
    · obtain ⟨d, ds, h, -⟩ := Radix.digits_eq_cons (by decide : 2 ≤ 10) h0
      simp [h]
  simpa [ofNat, Radix.write] using h

/-- A number below a power of ten has no more digits than the power has zeros. -/
theorem length_ofNat_le {k : Nat} (hk : 0 < k) (hn : n < Nat.pow 10 k) :
    (ofNat n).length ≤ k := by
  have hbase : 2 ≤ 10 := by decide
  rw [ofNat, Radix.write, List.length_map]
  by_cases h0 : n = 0
  · subst h0
    exact hk
  · obtain ⟨d, ds, hds, hd⟩ := Radix.digits_eq_cons hbase h0
    have hvalue := Radix.pow_le_value 10 d ds (Nat.pos_of_ne_zero hd)
    rw [← hds, Radix.value_digits hbase] at hvalue
    rw [hds]
    exact (Nat.pow_lt_pow_iff_right (by decide)).1 (Nat.lt_of_le_of_lt hvalue hn)

theorem ofInt_ne_nil (n : Int) : ofInt n ≠ [] := by
  cases n with
  | ofNat n => exact ofNat_ne_nil n
  | negSucc n => exact List.cons_ne_nil _ _

theorem ofNumerals_zeros (n : Nat) : (zeros n).OfNumerals := by
  intro s hs
  rw [List.eq_of_mem_replicate hs]
  decide

theorem ofNumerals_padZeros (n : Nat) (ht : t.OfNumerals) : (padZeros n t).OfNumerals :=
  .append (ofNumerals_zeros _) ht

end Text

namespace Double

open Text (OfNumerals)

private theorem ofNumerals_exponentText (k : Int) : (exponentText k).OfNumerals := by
  unfold exponentText
  refine .append (.append (by decide) ?_) (Text.ofNumerals_padZeros 2 (Text.ofNumerals_ofNat _))
  split <;> decide

private theorem ofNumerals_layout {ds : Text} (h : ds.OfNumerals) (k : Int) :
    (layout ds k).OfNumerals := by
  unfold layout
  split
  · split
    · exact ((show OfNumerals "0." by decide).append (Text.ofNumerals_zeros _)).append h
    · dsimp only
      split
      · exact (h.append (Text.ofNumerals_zeros _)).append (by decide)
      · exact ((h.sublist (List.take_sublist _ _)).append (by decide)).append
          (h.sublist (List.drop_sublist _ _))
  · refine .append ?_ (ofNumerals_exponentText k)
    match ds with
    | [] => exact h
    | [_] => exact h
    | d :: e :: rest =>
      exact .cons (h d (by simp)) (.cons (by decide) (h.sublist (List.sublist_cons_self d _)))

theorem ofNumerals_text (x : Double) : x.text.OfNumerals := by
  unfold text
  cases x.parts with
  | nan => decide
  | infinite negative => cases negative <;> decide
  | finite negative m e =>
    have hs : OfNumerals (if negative = true then "-" else []) := by cases negative <;> decide
    dsimp only
    split
    · exact hs.append (by decide)
    · exact hs.append
        (ofNumerals_layout ((Text.ofNumerals_ofNat _).sublist (Text.prefix_dropTail _ _).sublist) _)

private theorem layout_ne_nil (ds : Text) (k : Int) : layout ds k ≠ [] := by
  unfold layout
  split
  · split
    · exact List.cons_ne_nil _ _
    · dsimp only
      split <;> simp [Text.ofString]
  · simp [exponentText, Text.ofString]

theorem text_ne_nil (x : Double) : x.text ≠ [] := by
  unfold text
  cases x.parts with
  | nan => decide
  | infinite negative => cases negative <;> decide
  | finite negative m e =>
    dsimp only
    split
    · simp [Text.ofString]
    · simp [layout_ne_nil]

end Double

namespace Instant

open Text (OfMarks)

private theorem ofMarks_padded (width n : Nat) : (padded width n).OfMarks :=
  (Text.ofNumerals_padZeros width (Text.ofNumerals_ofNat n)).marks

private theorem ofMarks_joined {t m : Text} (ht : t.OfMarks) (hm : m.OfMarks)
    (width n : Nat) : OfMarks (t ++ m ++ padded width n) :=
  (ht.append hm).append (ofMarks_padded width n)

private theorem ofMarks_toSecond (i : Instant) : i.toSecond.OfMarks := by
  have hyear : (padded 4 (Date.ofDays (i.micros.fdiv 86400000000)).year).OfMarks :=
    ofMarks_padded _ _
  have hmonth := ofMarks_joined hyear (m := "-") (by decide) 2
  have hday := fun m => ofMarks_joined (hmonth m) (m := "-") (by decide) 2
  have hhour := fun m d => ofMarks_joined (hday m d) (m := "T") (by decide) 2
  have hminute := fun m d h => ofMarks_joined (hhour m d h) (m := ":") (by decide) 2
  exact ofMarks_joined (hminute _ _ _ _) (m := ":") (by decide) 2 _

theorem ofMarks_record (i : Instant) : i.record.OfMarks :=
  (((ofMarks_toSecond i).append (by decide)).append (ofMarks_padded _ _)).append (by decide)

theorem ofMarks_event (i : Instant) : i.event.OfMarks := by
  unfold event
  refine ((ofMarks_toSecond i).append ?_).append (by decide)
  split
  · decide
  · exact (show OfMarks "." by decide).append (ofMarks_padded _ _)

end Instant
end ClipActions
