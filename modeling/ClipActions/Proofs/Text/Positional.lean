import ClipActions.Proofs.Text.Numerals
import ClipActions.Proofs.Text.Order

/-!
Positional notation is canonical and ordered. A number has one notation without a superfluous zero in
front; of two notations of one length the greater number has the later one, and a longer notation is
that of a greater number.
-/
namespace ClipActions

/-- The value of a digit from 0 to 9 or from a to z. -/
def Symbol.alphanumeric? : Symbol → Option Nat
  | char c =>
    if '0' ≤ c ∧ c ≤ '9' then some (c.toNat - '0'.toNat)
    else if 'a' ≤ c ∧ c ≤ 'z' then some (c.toNat - 'a'.toNat + 10)
    else none
  | lone _ => none

/-- A shorter text precedes a longer one, and of two texts of one length the first in the order of code
points precedes the other. -/
def Text.Precedes (s t : Text) : Prop :=
  s.length < t.length ∨ s.length = t.length ∧ s ≠ t ∧ Text.le s t = true

namespace Radix

variable {base d m n : Nat} {ds es : List Nat} {s : Symbol} {t u : Text}

/-- The number that a text is in a base; none if it is empty or holds anything but digits. -/
def number? (base : Nat) (t : Text) : Option Nat :=
  if t = [] then none
  else value base <$> t.mapM fun s => s.alphanumeric?.filter (· < base)

/-- A text that no superfluous zero begins. -/
def Trim (t : Text) : Prop := t.head? = some (.char '0') → t.length = 1

/-! Values of digits. -/

theorem value_lt (hd : ∀ d ∈ ds, d < base) : value base ds < base ^ ds.length := by
  induction ds with
  | nil => simp [value]
  | cons d ds ih =>
    obtain ⟨hlt, hrest⟩ := List.forall_mem_cons.1 hd
    have hvalue := ih hrest
    have hstep : (d + 1) * base ^ ds.length ≤ base * base ^ ds.length :=
      Nat.mul_le_mul_right _ hlt
    rw [value_cons, List.length_cons, Nat.pow_succ']
    rw [Nat.add_mul, Nat.one_mul] at hstep
    omega

theorem value_zeros (base count : Nat) (ds : List Nat) :
    value base (List.replicate count 0 ++ ds) = value base ds := by
  induction count with
  | zero => rfl
  | succ count ih => rw [List.replicate_succ, List.cons_append, value_cons, ih, Nat.zero_mul, Nat.zero_add]

/-! Digits as symbols. -/

theorem code_digit : ∀ d < 36, (digit d).code = if d < 10 then 48 + d else 87 + d := by decide

theorem code_digit_lt {e : Nat} (hd : d < 36) (he : e < 36) :
    (digit d).code < (digit e).code ↔ d < e := by
  rw [code_digit d hd, code_digit e he]
  split <;> split <;> omega

theorem digit_injective {e : Nat} (hd : d < 36) (he : e < 36) (h : digit d = digit e) : d = e := by
  have hde := code_digit_lt hd he
  have hed := code_digit_lt he hd
  rw [h] at hde hed
  omega

theorem alphanumeric?_eq_some : s.alphanumeric? = some d ↔ d < 36 ∧ s = digit d := by
  constructor
  · intro h
    cases s with
    | lone half => cases h
    | char c =>
      have hbetween : ∀ a b : Char, a ≤ c ∧ c ≤ b → a.toNat ≤ c.toNat ∧ c.toNat ≤ b.toNat :=
        fun a b h => ⟨h.1, h.2⟩
      simp only [Symbol.alphanumeric?] at h
      have hnine : '9'.toNat = '0'.toNat + 9 := rfl
      have hz : 'z'.toNat = 'a'.toNat + 25 := rfl
      split at h
      · rename_i hc
        obtain ⟨hlow, hhigh⟩ := hbetween _ _ hc
        obtain rfl : c.toNat - '0'.toNat = d := Option.some.inj h
        have hcode : 48 + (c.toNat - '0'.toNat) = c.toNat := Nat.add_sub_cancel' hlow
        refine ⟨by omega, ?_⟩
        rw [digit, if_pos (by omega), hcode, Char.ofNat_toNat]
      · split at h
        · rename_i hc
          obtain ⟨hlow, hhigh⟩ := hbetween _ _ hc
          obtain rfl : c.toNat - 'a'.toNat + 10 = d := Option.some.inj h
          have hcode : 87 + (c.toNat - 'a'.toNat + 10) = c.toNat := by
            have ha : 'a'.toNat = 97 := rfl
            omega
          refine ⟨by omega, ?_⟩
          rw [digit, if_neg (by omega), hcode, Char.ofNat_toNat]
        · cases h
  · rintro ⟨hd, rfl⟩
    exact (by decide : ∀ d < 36, (digit d).alphanumeric? = some d) d hd

/-- The digits of a text are read one by one. -/
theorem mapM_alphanumeric? (hb : base ≤ 36) :
    t.mapM (fun s => s.alphanumeric?.filter (· < base)) = some ds ↔
      (∀ d ∈ ds, d < base) ∧ t = ds.map digit := by
  induction t generalizing ds with
  | nil =>
    cases ds <;> simp
  | cons s t ih =>
    rw [List.mapM_cons]
    constructor
    · intro h
      obtain ⟨d, hd, h⟩ := Option.bind_eq_some_iff.1 h
      obtain ⟨es, hes, h⟩ := Option.bind_eq_some_iff.1 h
      cases h
      obtain ⟨hs, hlt⟩ := Option.filter_eq_some_iff.1 hd
      obtain ⟨hall, rfl⟩ := ih.1 hes
      obtain ⟨-, rfl⟩ := alphanumeric?_eq_some.1 hs
      exact ⟨List.forall_mem_cons.2 ⟨of_decide_eq_true hlt, hall⟩, rfl⟩
    · rintro ⟨hall, heq⟩
      cases ds with
      | nil => cases heq
      | cons d ds =>
        obtain ⟨hlt, hrest⟩ := List.forall_mem_cons.1 hall
        rw [List.map_cons] at heq
        obtain ⟨rfl, rfl⟩ := List.cons.inj heq
        have hdigit := alphanumeric?_eq_some.2 ⟨hlt.trans_le hb, rfl⟩
        rw [hdigit, Option.filter_some, if_pos (decide_eq_true hlt), ih.2 ⟨hrest, rfl⟩]
        rfl

theorem number?_eq_some (hb : base ≤ 36) : number? base t = some n ↔
    ∃ ds, ds ≠ [] ∧ (∀ d ∈ ds, d < base) ∧ t = ds.map digit ∧ value base ds = n := by
  unfold number?
  constructor
  · intro h
    split at h
    · cases h
    · rename_i hne
      obtain ⟨ds, hds, hn⟩ := Option.map_eq_some_iff.1 h
      obtain ⟨hlt, rfl⟩ := (mapM_alphanumeric? hb).1 hds
      exact ⟨ds, by simpa using hne, hlt, rfl, hn⟩
  · rintro ⟨ds, hne, hlt, rfl, rfl⟩
    rw [if_neg (by simpa using hne), (mapM_alphanumeric? hb).2 ⟨hlt, rfl⟩]
    rfl

/-! Order. -/

/-- Notations of one length are in the order of their numbers, whatever follows them. -/
theorem le_digits (hb : base ≤ 36) (hlen : ds.length = es.length) (hd : ∀ d ∈ ds, d < base)
    (he : ∀ d ∈ es, d < base) (t u : Text) :
    Text.le (ds.map digit ++ t) (es.map digit ++ u) = true ↔
      value base ds < value base es ∨ value base ds = value base es ∧ Text.le t u = true := by
  induction ds generalizing es with
  | nil =>
    obtain rfl : es = [] := List.length_eq_zero_iff.1 hlen.symm
    simp
  | cons d ds ih =>
    cases es with
    | nil => cases hlen
    | cons e es =>
      obtain ⟨hdlt, hds⟩ := List.forall_mem_cons.1 hd
      obtain ⟨helt, hes⟩ := List.forall_mem_cons.1 he
      have hlen : ds.length = es.length := Nat.succ.inj hlen
      have hd36 := hdlt.trans_le hb
      have he36 := helt.trans_le hb
      have hcode := code_digit_lt hd36 he36
      have hsame : (digit d).code = (digit e).code ↔ d = e :=
        ⟨fun h => digit_injective hd36 he36 (Symbol.code_injective h), fun h => h ▸ rfl⟩
      have hvd := value_lt hds
      have hve := value_lt hes
      rw [List.map_cons, List.map_cons, List.cons_append, List.cons_append, Text.le_cons, hcode,
        hsame, ih hlen hds hes, value_cons, value_cons, hlen]
      rw [hlen] at hvd
      rcases Nat.lt_trichotomy d e with h | rfl | h
      · have := Nat.mul_le_mul_right (base ^ es.length) h
        rw [Nat.succ_mul] at this
        have hfirst : d * base ^ es.length + value base ds < e * base ^ es.length + value base es := by
          omega
        simp [h, hfirst]
      · simp
      · have := Nat.mul_le_mul_right (base ^ es.length) h
        rw [Nat.succ_mul] at this
        have hlast : e * base ^ es.length + value base es < d * base ^ es.length + value base ds := by
          omega
        simp [h.not_gt, h.ne', hlast.not_gt, hlast.ne']

theorem le_write (hb : 2 ≤ base) (hb' : base ≤ 36)
    (hlen : (write base m).length = (write base n).length) :
    Text.le (write base m) (write base n) = true ↔ m ≤ n := by
  have h := le_digits hb' (by simpa [write] using hlen) (digits_lt hb m) (digits_lt hb n) [] []
  rw [List.append_nil, List.append_nil, value_digits hb, value_digits hb] at h
  rw [write, write, h, Nat.le_iff_lt_or_eq]
  simp [Text.le]

theorem digits_ne_nil (hb : 2 ≤ base) (n : Nat) : digits base n ≠ [] := by
  by_cases h0 : n = 0
  · subst h0
    simp [digits_zero]
  · obtain ⟨d, ds, h, -⟩ := digits_eq_cons hb h0
    simp [h]

/-- A number lies below the power of the base that its length gives. -/
theorem lt_pow_length (hb : 2 ≤ base) (n : Nat) : n < base ^ (write base n).length := by
  have h := value_lt (digits_lt hb n)
  rwa [value_digits hb, ← List.length_map (f := digit)] at h

/-- A notation of several digits is that of a number that needs them. -/
theorem pow_le_of_length (hb : 2 ≤ base) {k : Nat} (hk : k < (write base n).length) (h0 : n ≠ 0) :
    base ^ k ≤ n := by
  obtain ⟨d, ds, hds, hd⟩ := digits_eq_cons hb h0
  have hvalue := pow_le_value base d ds (Nat.pos_of_ne_zero hd)
  rw [← hds, value_digits hb] at hvalue
  rw [write, List.length_map, hds, List.length_cons] at hk
  exact (Nat.pow_le_pow_right (by omega) (by omega)).trans hvalue

theorem lt_of_length_lt (hb : 2 ≤ base) (h : (write base m).length < (write base n).length) :
    m < n := by
  have h0 : n ≠ 0 := by
    rintro rfl
    have hm : (write base m).length ≠ 0 := by
      simpa [write] using digits_ne_nil hb m
    simp only [write, digits_zero, List.map_cons, List.map_nil, List.length_cons,
      List.length_nil] at h hm
    omega
  exact (lt_pow_length hb m).trans_le (pow_le_of_length hb h h0)

theorem write_injective (hb : 2 ≤ base) (hb' : base ≤ 36) (h : write base m = write base n) : m = n := by
  have hle := le_write hb hb' (congrArg List.length h)
  have hge := le_write hb hb' (congrArg List.length h.symm)
  have hself : Text.le (write base n) (write base n) = true := by
    simpa using Text.le_total (write base n) (write base n)
  rw [h] at hle hge
  exact Nat.le_antisymm (hle.1 hself) (hge.1 hself)

/-- The notations of numbers come in the order of the numbers. -/
theorem precedes_iff (hb : 2 ≤ base) (hb' : base ≤ 36) :
    (write base m).Precedes (write base n) ↔ m < n := by
  constructor
  · rintro (h | ⟨hlen, hne, hle⟩)
    · exact lt_of_length_lt hb h
    · have hmn := (le_write hb hb' hlen).1 hle
      have : m ≠ n := fun h => hne (h ▸ rfl)
      omega
  · intro h
    rcases Nat.lt_trichotomy (write base m).length (write base n).length with hlen | hlen | hlen
    · exact .inl hlen
    · refine .inr ⟨hlen, fun heq => ?_, (le_write hb hb' hlen).2 h.le⟩
      have := write_injective hb hb' heq
      omega
    · have := lt_of_length_lt hb hlen
      omega

/-! The one notation of a number. -/

theorem number?_write (hb : 2 ≤ base) (hb' : base ≤ 36) (n : Nat) :
    number? base (write base n) = some n :=
  (number?_eq_some hb').2 ⟨digits base n, digits_ne_nil hb n, digits_lt hb n, rfl, value_digits hb n⟩

theorem trim_write (hb : 2 ≤ base) (hb' : base ≤ 36) (n : Nat) : Trim (write base n) := by
  intro h
  by_cases h0 : n = 0
  · subst h0
    rfl
  · obtain ⟨d, ds, hds, hd⟩ := digits_eq_cons hb h0
    have hlt : d < base := digits_lt hb n d (hds ▸ List.mem_cons_self)
    rw [write, hds, List.map_cons, List.head?_cons] at h
    have hzero : digit d = digit 0 := Option.some.inj h
    exact absurd (digit_injective (hlt.trans_le hb') (by decide) hzero) hd

/-- Digits that no superfluous zero begins are as many as a number of their value has. -/
theorem length_digits_value (hb : 2 ≤ base) (hb' : base ≤ 36) (hne : ds ≠ [])
    (hd : ∀ d ∈ ds, d < base) (ht : Trim (ds.map digit)) :
    (digits base (value base ds)).length = ds.length := by
  obtain ⟨d, ds, rfl⟩ := List.exists_cons_of_ne_nil hne
  by_cases h0 : d = 0
  · subst h0
    have hlen : ds = [] := by simpa using ht rfl
    subst hlen
    rw [value_cons, value, List.foldl_nil, Nat.zero_mul, Nat.zero_add, digits_zero]
  · -- The value lies between two neighbouring powers of the base, which fixes its length.
    have hlow : base ^ ds.length ≤ value base (d :: ds) :=
      pow_le_value base d ds (Nat.pos_of_ne_zero h0)
    have hhigh := value_lt hd
    have hpos : value base (d :: ds) ≠ 0 := by
      have : 0 < base ^ ds.length := Nat.pow_pos (by omega)
      omega
    have hle := lt_pow_length hb (value base (d :: ds))
    rw [write, List.length_map] at hle
    have hmore : ds.length < (digits base (value base (d :: ds))).length :=
      (Nat.pow_lt_pow_iff_right (by omega)).1 (Nat.lt_of_le_of_lt hlow hle)
    have hless : ¬ (d :: ds).length < (digits base (value base (d :: ds))).length := by
      intro h
      have hpow : base ^ (d :: ds).length ≤ value base (d :: ds) :=
        pow_le_of_length hb (by rwa [write, List.length_map]) hpos
      exact (hpow.trans_lt hhigh).false
    rw [List.length_cons] at hless ⊢
    omega

/-- A number has one notation that no superfluous zero begins. -/
theorem eq_write_iff (hb : 2 ≤ base) (hb' : base ≤ 36) :
    t = write base n ↔ number? base t = some n ∧ Trim t := by
  constructor
  · rintro rfl
    exact ⟨number?_write hb hb' n, trim_write hb hb' n⟩
  · rintro ⟨hn, ht⟩
    obtain ⟨ds, hne, hlt, rfl, rfl⟩ := (number?_eq_some hb').1 hn
    have hlen := length_digits_value hb hb' hne hlt ht
    have hle := le_digits hb' hlen (digits_lt hb _) hlt [] []
    have hge := le_digits hb' hlen.symm hlt (digits_lt hb _) [] []
    simp only [value_digits hb, List.append_nil, Text.le, and_self, or_true, iff_true] at hle hge
    exact Text.le_antisymm hge hle

end Radix
end ClipActions
