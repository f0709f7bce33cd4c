import ClipActions.Proofs.Json.Nesting

/-!
Numbers are read back from their text: a whole number as it is, and a floating-point number as some
floating-point number, because its text has a fraction or an exponent. What follows a number does not
matter, as long as it may follow a value in a container.
-/
namespace ClipActions

namespace Text

variable {s : Symbol} {t : Text}

theorem isAsciiDigit_ofNat {n : Nat} (h : s ∈ ofNat n) : s.isAsciiDigit = true := by
  obtain ⟨d, hd, rfl⟩ := mem_ofNat h
  exact Radix.isAsciiDigit_digit d hd

theorem exists_digit (h : s.isAsciiDigit = true) : ∃ d < 10, s = Radix.digit d := by
  obtain ⟨d, hd⟩ := Option.isSome_iff_exists.1 h
  exact ⟨d, Radix.digit?_some hd⟩

def IsDigits (t : Text) : Prop := t ≠ [] ∧ ∀ s ∈ t, s.isAsciiDigit = true

def IsWhole (t : Text) : Prop := t = "0" ∨ t.IsDigits ∧ t.head? ≠ some (.char '0')

def IsFraction (t : Text) : Prop := t = [] ∨ ∃ ds : Text, ds.IsDigits ∧ t = .char '.' :: ds

def IsExponent (t : Text) : Prop := t = [] ∨ ∃ (sign : Symbol) (ds : Text),
  (sign = .char '-' ∨ sign = .char '+') ∧ ds.IsDigits ∧ t = .char 'e' :: sign :: ds

/-- The text of a number that is not a whole one: it has a fraction, an exponent or both. -/
structure IsDecimal (whole fraction exponent : Text) : Prop where
  digits : whole.IsWhole
  point : fraction.IsFraction
  mark : exponent.IsExponent
  broken : fraction ≠ [] ∨ exponent ≠ []

theorem isDigits_ofNat (n : Nat) : (ofNat n).IsDigits :=
  ⟨ofNat_ne_nil n, fun _ hs => isAsciiDigit_ofNat hs⟩

theorem IsDigits.append {u : Text} (ht : t.IsDigits) (hu : ∀ s ∈ u, s.isAsciiDigit = true) :
    IsDigits (t ++ u) :=
  ⟨List.append_ne_nil_of_left_ne_nil ht.1 u, fun s hs => (List.mem_append.1 hs).elim (ht.2 s) (hu s)⟩

theorem isAsciiDigit_zeros (n : Nat) : ∀ s ∈ zeros n, s.isAsciiDigit = true := by
  intro s hs
  rw [List.eq_of_mem_replicate hs]
  decide

theorem IsDigits.zeros_append (ht : t.IsDigits) (n : Nat) : IsDigits (zeros n ++ t) :=
  ⟨List.append_ne_nil_of_right_ne_nil _ ht.1,
    fun s hs => (List.mem_append.1 hs).elim (isAsciiDigit_zeros n s) (ht.2 s)⟩

/-- No superfluous zero begins the text of a number. -/
theorem ofNat_eq_cons {n : Nat} (h0 : n ≠ 0) : ∃ s ds, ofNat n = s :: ds ∧ s ≠ .char '0' := by
  obtain ⟨d, ds, hds, hd⟩ := Radix.digits_eq_cons (by decide : 2 ≤ 10) h0
  have hlt : d < 10 := Radix.digits_lt (by decide) n d (hds ▸ List.mem_cons_self)
  have hfirst : ∀ d < 10, d ≠ 0 → Radix.digit d ≠ .char '0' := by decide
  exact ⟨Radix.digit d, ds.map Radix.digit, by rw [ofNat, Radix.write, hds, List.map_cons],
    hfirst d hlt hd⟩

theorem isWhole_ofNat (n : Nat) : (ofNat n).IsWhole := by
  by_cases h0 : n = 0
  · subst h0
    exact .inl rfl
  · obtain ⟨s, ds, hs, hne⟩ := ofNat_eq_cons h0
    refine .inr ⟨isDigits_ofNat n, ?_⟩
    rw [hs, List.head?_cons]
    exact fun h => hne (Option.some.inj h)

theorem IsWhole.isDigits (ht : t.IsWhole) : t.IsDigits := by
  rcases ht with rfl | ⟨ht, -⟩
  · exact ⟨by decide, by decide⟩
  · exact ht

end Text

namespace Double

open Text (IsDigits IsWhole IsFraction IsExponent IsDecimal)

variable {m : Nat} {e : Int} {s : Symbol} {ds : Text}

private theorem chosen {lower nearer upper : Bool} {floor : Nat} {d : Digits}
    (h : (if lower && nearer then some ⟨floor, e⟩
      else if upper then some ⟨floor + 1, e⟩ else none) = some d) :
    lower = true ∧ d.digits = floor ∨ d.digits = floor + 1 := by
  cases lower <;> cases nearer <;> cases upper <;> cases h <;> simp

/-- Zero is none of the decimals that read back as a positive number. -/
theorem candidate_digits_ne_zero {low a b : Nat} {top : Int} {count : Nat} {d : Digits} (hm : m ≠ 0)
    (hl : low ≤ 2) (ha : 0 < a) (h : candidate m low a b top count = some d) : d.digits ≠ 0 := by
  obtain ⟨num, den, hscale, hnum⟩ :
      ∃ num den, scale a b (-(top - count)) = (num, den) ∧ 0 < num := by
    unfold scale
    split
    · exact ⟨_, _, rfl, Nat.mul_pos ha (Nat.pow_pos (by decide))⟩
    · exact ⟨_, _, rfl, ha⟩
  have hleast : 0 < num * (4 * m - low) := Nat.mul_pos hnum (by omega)
  simp only [candidate, hscale] at h
  intro h0
  rcases chosen h with ⟨hlower, hd⟩ | hd
  · rw [h0] at hd
    rw [← hd, Nat.zero_mul] at hlower
    split at hlower
    · rw [Bool.and_eq_true, decide_eq_true_eq] at hlower
      omega
    · rw [Bool.and_eq_true, decide_eq_true_eq] at hlower
      omega
  · rw [h0] at hd
    exact absurd hd.symm (Nat.succ_ne_zero _)

theorem shortest_digits_ne_zero (hm : m ≠ 0) : (shortest m e).digits ≠ 0 := by
  obtain ⟨a, b, hscale, ha⟩ : ∃ a b,
      (if 0 ≤ e - 2 then (pow2 (e - 2), 1) else (1, pow2 (-(e - 2)))) = (a, b) ∧ 0 < a := by
    split
    · exact ⟨_, _, rfl, Nat.pow_pos (by decide)⟩
    · exact ⟨_, _, rfl, by decide⟩
  have hlow : (if m = hiddenBit ∧ e ≠ -1074 then 1 else 2) ≤ 2 := by split <;> decide
  simp only [shortest, hscale]
  cases hfound : List.findSome? _ _ with
  | none => exact hm
  | some d =>
    obtain ⟨count, -, hcount⟩ := List.exists_of_findSome?_eq_some hfound
    exact candidate_digits_ne_zero hm hlow ha hcount

theorem isExponent_exponentText (k : Int) : (exponentText k).IsExponent := by
  refine .inr ⟨if k < 0 then .char '-' else .char '+', (Text.ofNat k.natAbs).padZeros 2, ?_,
    (Text.isDigits_ofNat _).zeros_append _, ?_⟩
  · split
    · exact .inl rfl
    · exact .inr rfl
  · unfold exponentText
    split <;> rfl

theorem exponentText_ne_nil (k : Int) : exponentText k ≠ [] := by simp [exponentText, Text.ofString]

/-- Digits that begin with no zero are laid out with a fraction or an exponent. -/
theorem layout_isDecimal (hs : s ≠ .char '0') (hd : IsDigits (s :: ds)) (k : Int) :
    ∃ whole fraction exponent, IsDecimal whole fraction exponent ∧
      layout (s :: ds) k = whole ++ fraction ++ exponent := by
  have hhead : ∀ t : Text, (s :: t).head? ≠ some (.char '0') := fun t h => hs (Option.some.inj h)
  have hrest : ∀ r ∈ ds, r.isAsciiDigit = true := fun r hr => hd.2 r (List.mem_cons_of_mem s hr)
  unfold layout
  split
  · split
    · refine ⟨"0", .char '.' :: (Text.zeros (-k - 1).toNat ++ (s :: ds)), [],
        ⟨.inl rfl, .inr ⟨_, hd.zeros_append _, rfl⟩, .inl rfl, .inl (List.cons_ne_nil _ _)⟩, ?_⟩
      simp [Text.ofString]
    · dsimp only
      split
      · refine ⟨(s :: ds) ++ Text.zeros (k.toNat + 1 - (s :: ds).length), ".0", [],
          ⟨.inr ⟨hd.append (Text.isAsciiDigit_zeros _), hhead _⟩,
            .inr ⟨"0", ⟨by decide, by decide⟩, rfl⟩, .inl rfl, .inl (by decide)⟩, ?_⟩
        simp
      · rename_i hlong
        have hsub : ∀ r ∈ (s :: ds).drop (k.toNat + 1), r.isAsciiDigit = true :=
          fun r hr => hd.2 r (List.mem_of_mem_drop hr)
        have htake : IsDigits ((s :: ds).take (k.toNat + 1)) :=
          ⟨by simp, fun r hr => hd.2 r (List.mem_of_mem_take hr)⟩
        have hdrop : (s :: ds).drop (k.toNat + 1) ≠ [] := fun h => hlong (List.drop_eq_nil_iff.1 h)
        refine ⟨(s :: ds).take (k.toNat + 1), .char '.' :: (s :: ds).drop (k.toNat + 1), [],
          ⟨.inr ⟨htake, ?_⟩, .inr ⟨_, ⟨hdrop, hsub⟩, rfl⟩, .inl rfl, .inl (List.cons_ne_nil _ _)⟩, ?_⟩
        · rw [List.take_succ_cons]
          exact hhead _
        · simp [Text.ofString]
  · have hone : IsWhole [s] :=
      .inr ⟨⟨List.cons_ne_nil _ _, fun r hr => hd.2 r (by simpa using .inl (List.mem_singleton.1 hr))⟩,
        hhead []⟩
    cases ds with
    | nil =>
      exact ⟨[s], [], exponentText k, ⟨hone, .inl rfl, isExponent_exponentText k,
        .inr (exponentText_ne_nil k)⟩, by simp⟩
    | cons r ds =>
      exact ⟨[s], .char '.' :: r :: ds, exponentText k,
        ⟨hone, .inr ⟨r :: ds, ⟨List.cons_ne_nil _ _, hrest⟩, rfl⟩, isExponent_exponentText k,
          .inl (List.cons_ne_nil _ _)⟩, by simp⟩

/-- The text of a finite number is a decimal one under a sign. -/
theorem text_isDecimal {x : Double} {negative : Bool} (hx : x.parts = .finite negative m e) :
    ∃ whole fraction exponent, IsDecimal whole fraction exponent ∧
      x.text = (if negative then [.char '-'] else []) ++ (whole ++ fraction ++ exponent) := by
  unfold text
  rw [hx]
  dsimp only
  split
  · exact ⟨"0", ".0", [], ⟨.inl rfl, .inr ⟨"0", ⟨by decide, by decide⟩, rfl⟩, .inl rfl,
      .inl (by decide)⟩, rfl⟩
  · rename_i hm
    obtain ⟨s, ds, hds, hs⟩ := Text.ofNat_eq_cons (shortest_digits_ne_zero (e := e) hm)
    have hdigits := Text.isDigits_ofNat (shortest m e).digits
    have hzero : decide (s = .char '0') = false := decide_eq_false hs
    obtain ⟨u, hu, hfront⟩ := Text.dropTail_cons (p := (· = .char '0')) hzero ds
    rw [hds] at hdigits ⊢
    rw [hu]
    have hkept : IsDigits (s :: u) :=
      ⟨List.cons_ne_nil _ _, fun r hr => hdigits.2 r ((hfront.sublist.cons_cons s).subset hr)⟩
    obtain ⟨whole, fraction, exponent, hdec, hlay⟩ := layout_isDecimal hs hkept
      ((shortest m e).exponent + ((s :: ds).length : Nat) - 1)
    refine ⟨whole, fraction, exponent, hdec, ?_⟩
    rw [hlay]
    cases negative <;> rfl

end Double

namespace Json

open Text (IsWhole IsFraction IsExponent IsDecimal)

variable {s : Symbol} {t rest whole fraction exponent : Text} {room fuel : Nat}

theorem digitsValue_ofNat (n : Nat) : digitsValue (Text.ofNat n) = n := by
  have hdigits : (Text.ofNat n).filterMap Symbol.digit? = Radix.digits 10 n := by
    unfold Text.ofNat Radix.write
    rw [List.filterMap_map]
    refine (List.filterMap_congr fun d hd => ?_).trans List.filterMap_some
    exact Radix.digit?_digit d (Radix.digits_lt (by decide) n d hd)
  rw [digitsValue, hdigits, Radix.value_digits (by decide)]

theorem Closed.not_isAsciiDigit (hc : Closed rest) : ∀ s ∈ rest.head?, s.isAsciiDigit = false := by
  intro s hs
  rcases hc s hs with rfl | rfl | rfl <;> decide

theorem takeDigits_append (ht : ∀ s ∈ t, s.isAsciiDigit = true)
    (hr : ∀ s ∈ rest.head?, s.isAsciiDigit = false) : takeDigits (t ++ rest) = (t, rest) := by
  have htail : rest.takeWhile Symbol.isAsciiDigit = [] ∧
      rest.dropWhile Symbol.isAsciiDigit = rest := by
    cases rest with
    | nil => exact ⟨rfl, rfl⟩
    | cons s rest => simp [hr s rfl]
  rw [takeDigits, List.span_eq_takeWhile_dropWhile, List.takeWhile_append_of_pos ht,
    List.dropWhile_append_of_pos ht, htail.1, htail.2, List.append_nil]

theorem readWhole?_append (hw : whole.IsWhole) (hr : ∀ s ∈ rest.head?, s.isAsciiDigit = false) :
    readWhole? (whole ++ rest) = some (whole, rest) := by
  rcases hw with rfl | ⟨hd, hne⟩
  · rfl
  · have htake := takeDigits_append hd.2 hr
    cases whole with
    | nil => exact absurd rfl hd.1
    | cons s whole =>
      rw [List.cons_append] at htake ⊢
      unfold readWhole?
      split
      · rename_i heq
        exact absurd (congrArg some (List.cons.inj heq).1) hne
      · rw [htake]

theorem readFraction_append (hf : fraction.IsFraction)
    (hr : ∀ s ∈ rest.head?, s.isAsciiDigit = false ∧ s ≠ .char '.') :
    readFraction (fraction ++ rest) = (fraction.drop 1, rest) := by
  rcases hf with rfl | ⟨ds, hd, rfl⟩
  · rw [List.nil_append]
    unfold readFraction
    split
    · exact absurd rfl (hr (.char '.') rfl).2
    · rfl
  · have htake := takeDigits_append hd.2 fun s hs => (hr s hs).1
    rw [List.cons_append, readFraction, htake]
    cases ds with
    | nil => exact absurd rfl hd.1
    | cons s ds => rfl

theorem readExponent_closed (hc : Closed rest) : readExponent rest = (none, rest) := by
  unfold readExponent
  split
  · rename_i e more
    have he : ¬ (e = .char 'e' ∨ e = .char 'E') := by
      rcases hc e rfl with rfl | rfl | rfl <;> decide
    rw [if_neg he]
  · rfl

theorem readExponent_append (he : exponent.IsExponent) (hne : exponent ≠ []) : ∃ n,
    ∀ rest, Closed rest → readExponent (exponent ++ rest) = (some n, rest) := by
  obtain ⟨sign, ds, hs, hd, rfl⟩ := he.resolve_left hne
  obtain ⟨s, ds, rfl⟩ := List.exists_cons_of_ne_nil hd.1
  have htake (rest : Text) (hc : Closed rest) : takeDigits (s :: (ds ++ rest)) = (s :: ds, rest) :=
    takeDigits_append hd.2 hc.not_isAsciiDigit
  rcases hs with rfl | rfl
  · refine ⟨-(digitsValue (s :: ds) : Int), fun rest hc => ?_⟩
    simp only [readExponent, List.cons_append, true_or, if_true, htake rest hc]
  · refine ⟨digitsValue (s :: ds), fun rest hc => ?_⟩
    simp only [readExponent, List.cons_append, true_or, if_true, htake rest hc]
    rfl

/-- What begins an exponent, or what follows it, goes on with no digit and no fraction. -/
theorem head_exponent (he : exponent.IsExponent) (hc : Closed rest) :
    ∀ s ∈ (exponent ++ rest).head?, s.isAsciiDigit = false ∧ s ≠ .char '.' := by
  rcases he with rfl | ⟨sign, ds, -, -, rfl⟩
  · intro s hs
    rcases hc s hs with rfl | rfl | rfl <;> decide
  · intro s hs
    cases hs
    decide

theorem head_fraction (hf : fraction.IsFraction)
    (hr : ∀ s ∈ rest.head?, s.isAsciiDigit = false) :
    ∀ s ∈ (fraction ++ rest).head?, s.isAsciiDigit = false := by
  rcases hf with rfl | ⟨ds, -, rfl⟩
  · exact hr
  · intro s hs
    cases hs
    rfl

def sign (negative : Bool) : Text := if negative then [.char '-'] else []

theorem readNumber_signed (negative : Bool) {left left' ds : Text} {n : Option Int}
    (hw : whole.IsWhole) (hr : ∀ s ∈ rest.head?, s.isAsciiDigit = false)
    (hf : readFraction rest = (ds, left)) (he : readExponent left = (n, left')) :
    readNumber (sign negative ++ (whole ++ rest)) =
      if ds.isEmpty && n.isNone then
        if maxDigits < whole.length then
          .error ⟨.tooManyDigits whole.length, (sign negative ++ (whole ++ rest)).length⟩
        else .ok (.int (if negative then -(digitsValue whole : Int) else digitsValue whole), left')
      else .ok (.float (.ofDecimal negative (digitsValue (whole ++ ds)) (whole ++ ds).length
        (n.getD 0 - ds.length)), left') := by
  unfold readNumber
  split
  rename_i minus body heq
  obtain ⟨rfl, rfl⟩ : minus = negative ∧ body = whole ++ rest := by
    cases negative with
    | true =>
      cases heq
      exact ⟨rfl, rfl⟩
    | false =>
      rw [sign, if_neg Bool.false_ne_true, List.nil_append] at heq
      obtain ⟨s, ds, hs⟩ := List.exists_cons_of_ne_nil hw.isDigits.1
      have hdigit := hw.isDigits.2 s (hs ▸ List.mem_cons_self)
      rw [hs, List.cons_append] at heq ⊢
      split at heq
      · rename_i hm
        rw [(List.cons.inj hm).1] at hdigit
        cases hdigit
      · cases heq
        exact ⟨rfl, rfl⟩
  simp only [readWhole?_append hw hr, hf, he]

theorem ofInt_eq (n : Int) : Text.ofInt n = sign (n < 0) ++ Text.ofNat n.natAbs := by
  cases n with
  | ofNat n => rfl
  | negSucc n =>
    rw [sign, if_pos (decide_eq_true (Int.negSucc_lt_zero n))]
    rfl

theorem readNumber_ofInt (n : Int) (hl : (Text.ofNat n.natAbs).length ≤ maxDigits)
    (hc : Closed rest) : readNumber (Text.ofInt n ++ rest) = .ok (.int n, rest) := by
  have hf : readFraction rest = ([], rest) :=
    readFraction_append (.inl rfl) (head_exponent (show Text.IsExponent [] from .inl rfl) hc)
  have hn : (if decide (n < 0) then -(n.natAbs : Int) else n.natAbs) = n := by
    simp only [decide_eq_true_eq]
    split <;> omega
  rw [ofInt_eq, List.append_assoc, readNumber_signed _ (Text.isWhole_ofNat _)
    hc.not_isAsciiDigit hf (readExponent_closed hc), digitsValue_ofNat, hn]
  exact if_neg (Nat.not_lt.2 hl)

/-- The number that a decimal is read as depends on nothing behind it. -/
theorem readNumber_decimal (negative : Bool) (hd : IsDecimal whole fraction exponent) : ∃ y,
    ∀ rest, Closed rest →
      readNumber (sign negative ++ (whole ++ fraction ++ exponent) ++ rest) = .ok (.float y, rest) := by
  obtain ⟨n, hn, hbroken⟩ : ∃ n, (∀ rest, Closed rest →
      readExponent (exponent ++ rest) = (n, rest)) ∧
        ((fraction.drop 1).isEmpty && n.isNone) = false := by
    by_cases he : exponent = []
    · subst he
      refine ⟨none, fun rest hc => readExponent_closed hc, ?_⟩
      obtain ⟨ds, hds, rfl⟩ := hd.point.resolve_left (hd.broken.resolve_right (absurd rfl))
      simpa using hds.1
    · obtain ⟨n, hn⟩ := readExponent_append hd.mark he
      exact ⟨some n, hn, Bool.and_false _⟩
  refine ⟨.ofDecimal negative (digitsValue (whole ++ fraction.drop 1))
    (whole ++ fraction.drop 1).length (n.getD 0 - (fraction.drop 1).length), fun rest hc => ?_⟩
  have hmark := head_exponent hd.mark hc
  have hf := readFraction_append hd.point hmark
  have hr := head_fraction hd.point fun s hs => (hmark s hs).1
  have htext : sign negative ++ (whole ++ fraction ++ exponent) ++ rest =
      sign negative ++ (whole ++ (fraction ++ (exponent ++ rest))) := by
    simp only [List.append_assoc]
  rw [htext, readNumber_signed negative hd.digits hr hf (hn rest hc), hbroken]
  rfl

/-- No word that stands for a value begins with a digit, nor with a minus sign and a digit. -/
theorem readWord?_digit : ∀ d < 10, ∀ t, readWord? (Radix.digit d :: t) = none ∧
    readWord? (.char '-' :: Radix.digit d :: t) = none
  | 0, _, _ | 1, _, _ | 2, _, _ | 3, _, _ | 4, _, _ | 5, _, _ | 6, _, _ | 7, _, _ | 8, _, _
  | 9, _, _ => ⟨rfl, rfl⟩

theorem readWord?_signed (negative : Bool) (ht : t.IsDigits) (rest : Text) :
    readWord? (sign negative ++ (t ++ rest)) = none := by
  obtain ⟨s, ds, rfl⟩ := List.exists_cons_of_ne_nil ht.1
  obtain ⟨d, hd, rfl⟩ := Text.exists_digit (ht.2 s List.mem_cons_self)
  cases negative with
  | false => exact (readWord?_digit d hd _).1
  | true => exact (readWord?_digit d hd _).2

/-- Numerals that are no word are read as a number. -/
theorem readValue_number (ht : t.OfNumerals) (hne : t ≠ []) (hw : readWord? (t ++ rest) = none)
    (room fuel : Nat) : readValue room (fuel + 1) (t ++ rest) = readNumber (t ++ rest) := by
  obtain ⟨s, t, rfl⟩ := List.exists_cons_of_ne_nil hne
  have hnumeral : s.IsNumeral := ht s List.mem_cons_self
  rw [List.cons_append] at hw ⊢
  rw [readValue.eq_def]
  dsimp only
  rw [if_neg (hnumeral.ne (by decide)), if_neg (hnumeral.ne (by decide)),
    if_neg (hnumeral.ne (by decide)), hw]

theorem readValue_int (n : Int) (hl : (Text.ofNat n.natAbs).length ≤ maxDigits) (hc : Closed rest)
    (room fuel : Nat) : readValue room (fuel + 1) (Text.ofInt n ++ rest) = .ok (.int n, rest) := by
  have hw : readWord? (Text.ofInt n ++ rest) = none := by
    rw [ofInt_eq, List.append_assoc]
    exact readWord?_signed _ (Text.isDigits_ofNat _) rest
  rw [readValue_number (Text.ofNumerals_ofInt n) (Text.ofInt_ne_nil n) hw, readNumber_ofInt n hl hc]

/-- A floating-point number is read back as one, the same whatever follows it. -/
theorem exists_readValue_float (x : Double) : ∃ y, ∀ rest, Closed rest → ∀ room fuel,
    readValue room (fuel + 1) (writeFloat x ++ rest) = .ok (.float y, rest) := by
  cases hx : x.parts with
  | nan =>
    refine ⟨.nan, fun rest _ room fuel => ?_⟩
    rw [writeFloat, hx]
    rfl
  | infinite negative =>
    refine ⟨.infinity negative, fun rest _ room fuel => ?_⟩
    rw [writeFloat, hx]
    cases negative <;> rfl
  | finite negative m e =>
    obtain ⟨whole, fraction, exponent, hd, htext⟩ := Double.text_isDecimal hx
    obtain ⟨y, hy⟩ := readNumber_decimal negative hd
    refine ⟨y, fun rest hc room fuel => ?_⟩
    have hw : readWord? (x.text ++ rest) = none := by
      have := readWord?_signed negative hd.digits.isDigits (fraction ++ exponent ++ rest)
      rw [htext]
      simpa [sign, List.append_assoc] using this
    rw [writeFloat, hx]
    dsimp only
    rw [readValue_number (Double.ofNumerals_text x) (Double.text_ne_nil x) hw, htext]
    exact hy rest hc

/-- The number that a floating-point number is read back as. -/
def reread (x : Double) : Double :=
  match readValue 0 1 (writeFloat x) with
  | .ok (.float y, _) => y
  | _ => x

theorem readValue_float (x : Double) (hc : Closed rest) (room fuel : Nat) :
    readValue room (fuel + 1) (writeFloat x ++ rest) = .ok (.float (reread x), rest) := by
  obtain ⟨y, hy⟩ := exists_readValue_float x
  have halone := hy [] (fun s hs => by cases hs) 0 0
  rw [List.append_nil] at halone
  rw [hy rest hc, reread, halone]

end Json
end ClipActions
