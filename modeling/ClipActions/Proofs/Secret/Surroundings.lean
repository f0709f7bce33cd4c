import ClipActions.Proofs.Secret.Stability

/-!
Redaction on either side of a place where no secret can go on. What follows white space, or a mask,
is redacted as if it stood alone, as long as no header is open there, and redaction keeps such
places.
-/
namespace ClipActions.Secret

variable {p q : Pattern} {piece : Piece} {ps : List Piece} {t u before after mid : Text}
  {s : Symbol} {n : Nat}

/-! Matching up to a symbol that no piece takes. -/

/-- No text that a piece stands for holds a symbol. -/
def Piece.Shuns (s : Symbol) : Piece → Prop
  | .word w => s ∉ w
  | .run accepts _ => accepts s = false

instance (s : Symbol) : (piece : Piece) → Decidable (piece.Shuns s)
  | .word w => inferInstanceAs (Decidable (s ∉ w))
  | .run accepts _ => inferInstanceAs (Decidable (accepts s = false))

theorem prefix_append_cons {w : Text} (h : s ∉ w) : w <+: t ++ s :: u ↔ w <+: t :=
  ⟨fun hw => prefix_before hw h, fun hw => hw.trans (List.prefix_append _ _)⟩

theorem takeWhile_append_cons {accepts : Symbol → Bool} (h : accepts s = false) :
    (t ++ s :: u).takeWhile accepts = t.takeWhile accepts := by
  induction t with
  | nil => rw [List.nil_append, List.takeWhile_cons_of_neg (by simp [h]), List.takeWhile_nil]
  | cons r t ih => rw [List.cons_append, List.takeWhile_cons, List.takeWhile_cons, ih]

theorem Piece.Shuns.take? (h : piece.Shuns s) (t u : Text) :
    piece.take? (t ++ s :: u) = piece.take? t := by
  cases piece with
  | word w =>
    have hlead : Text.startsWith w (t ++ s :: u) = Text.startsWith w t := by
      rw [Bool.eq_iff_iff, Text.startsWith_iff, Text.startsWith_iff]
      exact prefix_append_cons h
    simp only [Piece.take?, hlead]
  | run accepts least => simp only [Piece.take?, takeWhile_append_cons h]

theorem matchLength?_shuns (h : ∀ piece ∈ ps, piece.Shuns s) (t u : Text) :
    matchLength? ps (t ++ s :: u) = matchLength? ps t := by
  induction ps generalizing t with
  | nil => rfl
  | cons piece ps ih =>
    obtain ⟨hpiece, hps⟩ := List.forall_mem_cons.1 h
    rw [matchLength?, matchLength?, hpiece.take?]
    cases hk : piece.take? t with
    | none => rfl
    | some k =>
      have hle := (take?_is hk).2
      simp only [Option.bind_eq_bind, Option.bind_some, List.drop_append_of_le_length hle, ih hps]

/-! Texts that are redacted apart. -/

/-- In the first of two texts a pattern finds the same, whether the second follows or not. -/
def Pattern.Parts (p : Pattern) (t u : Text) : Prop :=
  ∀ k < t.length, matchLength? p.pieces (t.drop k ++ u) = matchLength? p.pieces (t.drop k)

theorem Pattern.Parts.drop (h : p.Parts t u) (n : Nat) : p.Parts (t.drop n) u := by
  intro k hk
  rw [List.length_drop] at hk
  rw [List.drop_drop]
  exact h (n + k) (by omega)

theorem redact_of_none (h : matchLength? p.pieces (s :: t) = none) :
    p.redact (s :: t) = s :: p.redact t := by
  rw [Pattern.redact, maskFrom, h]
  rfl

theorem redact_of_some (h : matchLength? p.pieces t = some n) (hn : 0 < n) :
    p.redact t = p.mask ++ p.redact (t.drop n) := by
  have hle := (matchLength?_spelled h).2
  cases t with
  | nil => exact absurd hle (by simp; omega)
  | cons s t =>
    obtain ⟨n, rfl⟩ := Nat.exists_eq_add_one_of_ne_zero hn.ne'
    rw [Pattern.redact, maskFrom, h]
    dsimp only
    rw [Nat.add_sub_cancel, maskFrom_eq]
    rfl

theorem pos_of_matchLength? (hp : p ∈ patterns) (h : matchLength? p.pieces t = some n) : 0 < n := by
  have hlong := (shaped hp (matchLength?_spelled h).1).long
  rw [List.length_take] at hlong
  omega

theorem redact_append (hp : p ∈ patterns) (h : p.Parts t u) :
    p.redact (t ++ u) = p.redact t ++ p.redact u := by
  induction hlen : t.length using Nat.strong_induction_on generalizing t with
  | _ len ih =>
    subst hlen
    cases t with
    | nil => rfl
    | cons s t =>
      have hhead : matchLength? p.pieces (s :: (t ++ u)) = matchLength? p.pieces (s :: t) :=
        h 0 (Nat.succ_pos _)
      cases hm : matchLength? p.pieces (s :: t) with
      | none =>
        have hrest : p.redact (t ++ u) = p.redact t ++ p.redact u :=
          ih _ (Nat.lt_succ_self _) (h.drop 1) rfl
        rw [hm] at hhead
        rw [List.cons_append, redact_of_none hhead, redact_of_none hm, hrest, List.cons_append]
      | some n =>
        have hpos := pos_of_matchLength? hp hm
        have hle := (matchLength?_spelled hm).2
        have hshort : ((s :: t).drop n).length < (s :: t).length := by
          rw [List.length_drop]
          omega
        rw [hm] at hhead
        rw [List.cons_append, redact_of_some hhead hpos, redact_of_some hm hpos, List.append_assoc,
          ← ih _ hshort (h.drop n) rfl, ← List.cons_append, List.drop_append_of_le_length hle]

/-- Where no secret begins, nothing is masked. -/
theorem redact_kept (hp : p ∈ patterns) (h : ∀ k < t.length, ¬ p.Leads (t.drop k ++ u)) :
    p.redact (t ++ u) = t ++ p.redact u := by
  induction t with
  | nil => rfl
  | cons s t ih =>
    have hnone : matchLength? p.pieces (s :: (t ++ u)) = none := by
      have hlead := h 0 (Nat.succ_pos _)
      rw [leads_iff hp] at hlead
      exact Option.eq_none_iff_forall_ne_some.2 fun n hn => hlead ⟨n, hn⟩
    rw [List.cons_append, redact_of_none hnone, ih fun k hk => h (k + 1) (Nat.succ_lt_succ hk)]
    rfl

/-! Blanks around a credential. -/

/-- What can stand behind a credential: nothing, or a text that begins with white space. -/
def Behind (t : Text) : Prop := ∀ s, t.head? = some s → s.isBlank = true

/-- A text that ends in the word of a header and in white space, if any, after it. -/
def OpensHeader (t : Text) : Prop :=
  ∃ lead blanks : Text, t = lead ++ "Bearer" ++ blanks ∧ ∀ s ∈ blanks, s.isBlank = true

/-- What can stand before a credential: nothing, or a text that ends in white space, but not in the
word of a header and white space. -/
structure Before (t : Text) : Prop where
  blank : ∀ s, t.getLast? = some s → s.isBlank = true
  closed : ¬ OpensHeader t

theorem isTokenSymbol_of_isBlank (hs : s.isBlank = true) : isTokenSymbol s = false := by
  by_contra h
  rw [isBlank_of_isTokenSymbol (by simpa using h)] at hs
  cases hs

/-- No text that a piece stands for has white space in it. -/
def Piece.Solid (piece : Piece) : Prop := ∀ s : Symbol, s.isBlank = true → piece.Shuns s

theorem solid_word {w : Text} (hw : ∀ s ∈ w, isTokenSymbol s = true) : (Piece.word w).Solid := by
  intro s hs hm
  have htoken := hw s hm
  rw [isTokenSymbol_of_isBlank hs] at htoken
  cases htoken

theorem solid_token (n : Nat) : (Piece.run isTokenSymbol n).Solid :=
  fun _ hs => isTokenSymbol_of_isBlank hs

theorem solid_key (n : Nat) : (Piece.run isKeySymbol n).Solid :=
  fun _ hs => (Bool.or_eq_false_iff.1 (isTokenSymbol_of_isBlank hs)).1

/-- Only a header has white space in it. -/
theorem solid_or_bearer (hp : p ∈ patterns) : (∀ piece ∈ p.pieces, piece.Solid) ∨ p = bearer := by
  simp only [patterns, List.mem_cons, List.not_mem_nil, or_false] at hp
  rcases hp with rfl | rfl | rfl | rfl
  · simp only [vendorKey, List.forall_mem_cons]
    exact .inl ⟨solid_word (by decide), solid_key _, List.forall_mem_nil _⟩
  · simp only [apiKey, List.forall_mem_cons]
    exact .inl ⟨solid_word (by decide), solid_key _, List.forall_mem_nil _⟩
  · exact .inr rfl
  · simp only [webToken, List.forall_mem_cons]
    exact .inl ⟨solid_word (by decide), solid_key _, solid_word (by decide), solid_key _,
      solid_word (by decide), solid_key _, List.forall_mem_nil _⟩

/-- White space stands where two texts meet, or the second is empty. -/
def Meet (t u : Text) : Prop := (∃ r s, t = r ++ [s] ∧ s.isBlank = true) ∨ Behind u

theorem Meet.drop (h : Meet t u) (hn : n < t.length) : Meet (t.drop n) u := by
  refine h.imp_left ?_
  rintro ⟨r, s, rfl, hs⟩
  rw [List.length_append, List.length_singleton] at hn
  exact ⟨r.drop n, s, List.drop_append_of_le_length (by omega), hs⟩

/-- What is found in a text up to white space is found in the first of two texts. -/
theorem Meet.eq {α : Type} {f : Text → α} (h : Meet t u)
    (hf : ∀ s : Symbol, s.isBlank = true → ∀ t u, f (t ++ s :: u) = f t) : f (t ++ u) = f t := by
  rcases h with ⟨r, s, rfl, hs⟩ | hu
  · rw [List.append_assoc, List.cons_append, hf s hs, hf s hs]
  · cases u with
    | nil => rw [List.append_nil]
    | cons s u => exact hf s (hu s rfl) t u

theorem Meet.take? (h : Meet t u) (hp : piece.Solid) : piece.take? (t ++ u) = piece.take? t :=
  h.eq fun s hs => (hp s hs).take?

theorem Meet.matchLength? (h : Meet t u) (hps : ∀ piece ∈ ps, piece.Solid) :
    matchLength? ps (t ++ u) = matchLength? ps t :=
  h.eq fun s hs => matchLength?_shuns fun piece hm => hps piece hm s hs

theorem OpensHeader.append_left (h : OpensHeader t) (lead : Text) : OpensHeader (lead ++ t) := by
  obtain ⟨front, blanks, rfl, hb⟩ := h
  exact ⟨lead ++ front, blanks, by simp, hb⟩

/-- A text that follows a word and is not blank: the white space that it begins with. -/
theorem blanks_of_closed {v : Text} (h : ¬ OpensHeader ("Bearer" ++ v)) :
    ∃ blanks s rest, v = blanks ++ s :: rest ∧ (∀ r ∈ blanks, r.isBlank = true) ∧
      s.isBlank = false := by
  cases hf : v.find? (!·.isBlank) with
  | none =>
    refine absurd ⟨[], v, rfl, fun s hs => ?_⟩ h
    simpa using List.find?_eq_none.1 hf s hs
  | some s =>
    obtain ⟨hs, blanks, rest, rfl, hb⟩ := List.find?_eq_some_iff_append.1 hf
    exact ⟨blanks, s, rest, rfl, by simpa using hb, by simpa using hs⟩

/-- Behind the white space of a header its token is found. -/
theorem Meet.matchLength?_blanks {blanks rest : Text} (h : Meet (s :: rest) u)
    (hb : ∀ r ∈ blanks, r.isBlank = true) (hs : s.isBlank = false)
    (hps : ∀ piece ∈ ps, piece.Solid) :
    Secret.matchLength? (.run Symbol.isBlank n :: ps) (blanks ++ s :: (rest ++ u)) =
      Secret.matchLength? (.run Symbol.isBlank n :: ps) (blanks ++ s :: rest) := by
  have hshuns : (Piece.run Symbol.isBlank n).Shuns s := hs
  rw [Secret.matchLength?, Secret.matchLength?, hshuns.take?, hshuns.take?]
  cases hk : (Piece.run Symbol.isBlank n).take? blanks with
  | none => rfl
  | some k =>
    obtain rfl : blanks.length = k := by
      simp only [Piece.take?, List.takeWhile_eq_self_iff.2 hb] at hk
      split at hk
      · exact Option.some.inj hk
      · cases hk
    simp only [Option.bind_eq_bind, Option.bind_some, List.drop_left]
    rw [← List.cons_append, h.matchLength? hps]

theorem Meet.bearer (h : Meet t u) (ht : ¬ OpensHeader t) :
    Secret.matchLength? bearer.pieces (t ++ u) = Secret.matchLength? bearer.pieces t := by
  simp only [Secret.bearer]
  rw [Secret.matchLength?, Secret.matchLength?, h.take? (solid_word (by decide))]
  cases hk : (Piece.word "Bearer").take? t with
  | none => rfl
  | some k =>
    obtain ⟨his, hle⟩ := take?_is hk
    obtain ⟨v, rfl⟩ : ∃ v, t = "Bearer" ++ v := ⟨t.drop k, by rw [← his, List.take_append_drop]⟩
    obtain ⟨blanks, s, rest, rfl, hb, hs⟩ := blanks_of_closed ht
    have hlen : k = ("Bearer" : Text).length := by
      have := congrArg List.length his
      rw [List.length_take, min_eq_left hle] at this
      exact this
    have hmeet : Meet (s :: rest) u := by
      have := h.drop (n := (("Bearer" : Text) ++ blanks).length) (by simp)
      rwa [← List.append_assoc, List.drop_left] at this
    have hfound := hmeet.matchLength?_blanks (n := 1) hb hs
      (List.forall_mem_singleton.2 (solid_token 20))
    simp only [hlen, Option.bind_eq_bind, Option.bind_some, List.append_assoc, List.drop_left,
      List.cons_append, hfound]

theorem Meet.parts (hp : p ∈ patterns) (h : Meet t u) (ht : ¬ OpensHeader t) : p.Parts t u := by
  intro k hk
  have hdrop := h.drop hk
  rcases solid_or_bearer hp with hsolid | rfl
  · exact hdrop.matchLength? hsolid
  · refine hdrop.bearer fun hopens => ht ?_
    rw [← List.take_append_drop k t]
    exact hopens.append_left _

/-- Every mask ends in a bracket, which no secret holds. -/
theorem mask_eq (hp : p ∈ patterns) : ∃ front, p.mask = front ++ [.char ']'] :=
  List.getLast?_eq_some_iff.1
    ((by decide : ∀ p ∈ patterns, p.mask.getLast? = some (.char ']')) p hp)

theorem shuns_bracket (hp : p ∈ patterns) : ∀ piece ∈ p.pieces, piece.Shuns (.char ']') :=
  (by decide : ∀ p ∈ patterns, ∀ piece ∈ p.pieces, piece.Shuns (.char ']')) p hp

theorem clean_mask (hp : p ∈ patterns) : Clean p.mask :=
  (by decide +kernel : ∀ p ∈ patterns, Clean p.mask) p hp

/-! What redaction does to what stands around a credential. -/

theorem not_leads_of_isBlank (hp : p ∈ patterns) (hs : s.isBlank = true) (t : Text) :
    ¬ p.Leads (s :: t) := by
  intro h
  have hopens : ∀ r ∈ openings, r.isBlank = false := by decide
  obtain ⟨r, hr, hhead⟩ := head_of_leads (t := [s]) hp (by simp) h
  cases hhead
  rw [hopens s hr] at hs
  cases hs

theorem redact_blank (hp : p ∈ patterns) (hs : s.isBlank = true) (t : Text) :
    p.redact (s :: t) = s :: p.redact t :=
  redact_kept (t := [s]) hp fun k hk => by
    obtain rfl : k = 0 := by simpa using hk
    exact not_leads_of_isBlank hp hs _

theorem Behind.redact (hp : p ∈ patterns) (h : Behind t) : Behind (p.redact t) := by
  cases t with
  | nil => exact h
  | cons s t =>
    have hs := h s rfl
    rw [redact_blank hp hs]
    intro r hr
    cases hr
    exact hs

/-- Where no bracket is closed, nothing has been masked. -/
theorem Redacts.eq_of_not_mem (hp : p ∈ patterns) (h : Redacts p t u) (hu : .char ']' ∉ u) :
    t = u := by
  induction h with
  | done => rfl
  | kept s hn h ih => rw [ih fun hm => hu (List.mem_cons_of_mem _ hm)]
  | masked hm h ih =>
    obtain ⟨front, hmask⟩ := mask_eq hp
    exact absurd (by simp [hmask]) hu

theorem Redacts.suffix (hp : p ∈ patterns) (h : Redacts p t u) (hmid : mid <:+ u)
    (hb : .char ']' ∉ mid) : mid <:+ t := by
  induction h with
  | done => exact hmid
  | @kept t u s hn h ih =>
    rcases List.suffix_cons_iff.1 hmid with rfl | hu
    · rw [h.eq_of_not_mem hp fun hm => hb (List.mem_cons_of_mem _ hm)]
    · exact (ih hu).trans (List.suffix_cons s t)
  | @masked m t u hm h ih =>
    obtain ⟨front, hmask⟩ := mask_eq hp
    rw [hmask, List.append_assoc, List.singleton_append] at hmid
    rcases List.suffix_or_suffix_of_suffix hmid (List.suffix_append front _) with hu | hu
    · rcases List.suffix_cons_iff.1 hu with rfl | hu
      · exact absurd List.mem_cons_self hb
      · exact (ih hu).trans (List.suffix_append m t)
    · exact absurd (hu.subset List.mem_cons_self) hb

/-- The end of a text does not become the beginning of a header. -/
theorem not_opensHeader_redact (hp : p ∈ patterns) (h : ¬ OpensHeader t) :
    ¬ OpensHeader (p.redact t) := by
  rintro ⟨lead, blanks, he, hb⟩
  refine h ?_
  have hend : ("Bearer" ++ blanks : Text) <:+ p.redact t := ⟨lead, by rw [he, List.append_assoc]⟩
  have hopen : .char ']' ∉ ("Bearer" ++ blanks : Text) := by
    rw [List.mem_append, not_or]
    exact ⟨by decide, fun hm => absurd (hb _ hm) (by decide)⟩
  obtain ⟨front, rfl⟩ := (redacts hp t).suffix hp hend hopen
  exact OpensHeader.append_left ⟨[], blanks, rfl, hb⟩ front

theorem Before.parts (hp : p ∈ patterns) (h : Before t) (u : Text) : p.Parts t u := by
  rcases List.eq_nil_or_concat t with rfl | ⟨r, s, rfl⟩
  · exact fun k hk => absurd hk (Nat.not_lt_zero k)
  · have hs := h.blank s (by simp)
    exact Meet.parts hp (.inl ⟨r, s, List.concat_eq_append, hs⟩) h.closed

theorem Before.redact (hp : p ∈ patterns) (h : Before t) : Before (p.redact t) where
  closed := not_opensHeader_redact hp h.closed
  blank := by
    rcases List.eq_nil_or_concat t with rfl | ⟨r, s, rfl⟩
    · exact h.blank
    · have hs := h.blank s (by simp)
      have hr : ¬ OpensHeader r := by
        rintro ⟨lead, blanks, rfl, hb⟩
        refine h.closed ⟨lead, blanks ++ [s], by simp, fun x hx => ?_⟩
        rcases List.mem_append.1 hx with hx | hx
        · exact hb x hx
        · rw [List.mem_singleton.1 hx]
          exact hs
      have hparts : p.Parts r [s] :=
        Meet.parts hp (.inr fun x hx => by cases hx; exact hs) hr
      rw [List.concat_eq_append, redact_append hp hparts, redact_blank hp hs]
      intro x hx
      rw [List.getLast?_append] at hx
      cases hx
      exact hs

end ClipActions.Secret
