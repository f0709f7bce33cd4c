import ClipActions.Proofs.Text.Leads
import ClipActions.Secret
import Mathlib.Data.List.Infix
import Mathlib.Data.List.TakeWhile

/-!
Redaction leaves no secret behind. What a pattern stands for is said without its matcher; a text is
then related to what is left of it, symbol by symbol and match by match. No mask can be a part of a
secret: it is closed off by a bracket, which none holds, from what stands on either side.
-/
namespace ClipActions.Secret

variable {p q : Pattern} {piece : Piece} {ps : List Piece} {t u mid after : Text} {s : Symbol}
  {n : Nat}

/-! What patterns stand for. -/

/-- A text that a piece of a pattern stands for. -/
def Piece.Is : Piece → Text → Prop
  | .word w, t => t = w
  | .run accepts least, t => (∀ s ∈ t, accepts s = true) ∧ least ≤ t.length

/-- A text that pieces stand for, one behind the other. -/
inductive Spelled : List Piece → Text → Prop where
  | nil : Spelled [] []
  | cons {piece : Piece} {ps : List Piece} {t u : Text} (ht : piece.Is t) (hu : Spelled ps u) :
      Spelled (piece :: ps) (t ++ u)

/-- A secret of a kind stands at the beginning of a text. -/
def Pattern.Leads (p : Pattern) (t : Text) : Prop := ∃ mid, mid <+: t ∧ Spelled p.pieces mid

/-- A secret of a kind stands somewhere in a text. -/
def Pattern.In (p : Pattern) (t : Text) : Prop :=
  ∃ before mid after, t = before ++ mid ++ after ∧ Spelled p.pieces mid

/-- No secret stands in a text. -/
def Clean (t : Text) : Prop := ∀ p ∈ patterns, ¬ p.In t

theorem Spelled.nil_inv (h : Spelled [] t) : t = [] := by
  cases h
  rfl

theorem Spelled.word_inv {w : Text} (h : Spelled (.word w :: ps) t) :
    ∃ u, t = w ++ u ∧ Spelled ps u := by
  cases h with
  | cons ht hu => exact ⟨_, congrArg (· ++ _) ht, hu⟩

theorem Spelled.run_inv {accepts : Symbol → Bool} {least : Nat}
    (h : Spelled (.run accepts least :: ps) t) : ∃ r u, t = r ++ u ∧
      (∀ s ∈ r, accepts s = true) ∧ least ≤ r.length ∧ Spelled ps u := by
  cases h with
  | cons ht hu => exact ⟨_, _, rfl, ht.1, ht.2, hu⟩

theorem Pattern.Leads.in (h : p.Leads t) : p.In t := by
  obtain ⟨mid, ⟨after, rfl⟩, hm⟩ := h
  exact ⟨[], mid, after, rfl, hm⟩

theorem Pattern.In.append_left (h : p.In t) (u : Text) : p.In (u ++ t) := by
  obtain ⟨before, mid, after, rfl, hm⟩ := h
  exact ⟨u ++ before, mid, after, by simp, hm⟩

/-- A secret in a text begins in its first part or is in the second. -/
theorem Pattern.In.append_cases (h : p.In (t ++ u)) :
    p.In u ∨ ∃ k < t.length, p.Leads (t.drop k ++ u) := by
  obtain ⟨before, mid, after, he, hm⟩ := h
  by_cases hb : t.length ≤ before.length
  · have hu : u = before.drop t.length ++ mid ++ after := by
      have := congrArg (List.drop t.length) he
      rwa [List.drop_left, List.append_assoc, List.drop_append_of_le_length hb,
        ← List.append_assoc] at this
    exact .inl ⟨_, mid, after, hu, hm⟩
  · have hrest : t.drop before.length ++ u = mid ++ after := by
      have := congrArg (List.drop before.length) he
      rwa [List.drop_append_of_le_length (by omega), List.append_assoc, List.drop_left] at this
    exact .inr ⟨before.length, by omega, mid, ⟨after, hrest.symm⟩, hm⟩

/-! The matcher finds what a pattern stands for. -/

theorem take?_is (h : piece.take? t = some n) : piece.Is (t.take n) ∧ n ≤ t.length := by
  cases piece with
  | word w =>
    unfold Piece.take? at h
    dsimp only at h
    split at h
    · rename_i hw
      cases h
      have hlead := Text.startsWith_iff.1 hw
      exact ⟨(List.prefix_iff_eq_take.1 hlead).symm, hlead.length_le⟩
    · cases h
  | run accepts least =>
    unfold Piece.take? at h
    dsimp only at h
    split at h
    · rename_i hl
      cases h
      have htake : t.take (t.takeWhile accepts).length = t.takeWhile accepts :=
        (List.prefix_iff_eq_take.1 (List.takeWhile_prefix accepts)).symm
      rw [htake]
      exact ⟨⟨fun s hs => List.mem_takeWhile_imp hs, hl⟩, (List.takeWhile_prefix _).length_le⟩
    · cases h

theorem matchLength?_spelled (h : matchLength? ps t = some n) :
    Spelled ps (t.take n) ∧ n ≤ t.length := by
  induction ps generalizing t n with
  | nil =>
    cases h
    exact ⟨.nil, Nat.zero_le _⟩
  | cons piece ps ih =>
    rw [matchLength?] at h
    cases hk : piece.take? t with
    | none =>
      rw [hk] at h
      cases h
    | some k =>
      rw [hk] at h
      cases hm : matchLength? ps (t.drop k) with
      | none => simp [hm] at h
      | some m =>
        obtain rfl : k + m = n := by simpa [hm] using h
        obtain ⟨his, hle⟩ := take?_is hk
        obtain ⟨hspelled, hle'⟩ := ih hm
        rw [List.length_drop] at hle'
        refine ⟨?_, by omega⟩
        rw [List.take_add]
        exact .cons his hspelled

/-- After a run there comes what the run does not accept. -/
def Distinct : List Piece → Prop
  | [] => True
  | .word _ :: ps => Distinct ps
  | .run accepts _ :: ps => Distinct ps ∧
      (ps = [] ∨ ∀ u, Spelled ps u → ∃ s, u.head? = some s ∧ accepts s = false)

theorem matchLength?_of_spelled (hd : Distinct ps) (h : Spelled ps mid) (after : Text) :
    ∃ n, matchLength? ps (mid ++ after) = some n := by
  induction h with
  | nil => exact ⟨0, rfl⟩
  | @cons piece ps t u ht hu ih =>
    have hnext : ∀ k, piece.take? (t ++ (u ++ after)) = some k →
        (∃ n, matchLength? ps ((t ++ (u ++ after)).drop k) = some n) →
        ∃ n, matchLength? (piece :: ps) (t ++ u ++ after) = some n := by
      rintro k hk ⟨n, hn⟩
      refine ⟨k + n, ?_⟩
      rw [List.append_assoc, matchLength?, hk]
      simp [hn]
    cases piece with
    | word w =>
      obtain rfl : t = w := ht
      have hw : (Piece.word t).take? (t ++ (u ++ after)) = some t.length :=
        if_pos (Text.startsWith_iff.2 (List.prefix_append _ _))
      apply hnext _ hw
      rw [List.drop_left]
      exact ih hd
    | run accepts least =>
      obtain ⟨hd, hends⟩ := hd
      obtain ⟨haccepts, hleast⟩ := ht
      have htake : (t ++ (u ++ after)).takeWhile accepts =
          t ++ (u ++ after).takeWhile accepts :=
        List.takeWhile_append_of_pos haccepts
      have hlong : least ≤ ((t ++ (u ++ after)).takeWhile accepts).length := by
        rw [htake, List.length_append]
        omega
      apply hnext _ (if_pos hlong)
      rcases hends with rfl | hstop
      · exact ⟨0, rfl⟩
      · obtain ⟨s, hs, hno⟩ := hstop u hu
        obtain ⟨v, rfl⟩ := List.head?_eq_some_iff.1 hs
        rw [htake, List.cons_append, List.takeWhile_cons_of_neg (by simp [hno]), List.append_nil,
          List.drop_left]
        exact ih hd

/-! The four patterns. -/

theorem code_of_isTokenSymbol (h : isTokenSymbol s = true) : 0x21 ≤ s.code ∧ s.code < 0x80 := by
  cases s with
  | lone l => cases h
  | char c =>
    simp only [isTokenSymbol, isKeySymbol, Symbol.isAsciiLetter, Symbol.isAsciiDigit, Symbol.digit?,
      Bool.or_eq_true, Bool.and_eq_true, decide_eq_true_eq, Symbol.char.injEq, Char.le_def,
      UInt32.le_iff_toNat_le] at h
    have hrange : ∀ low high : Char, 0x21 ≤ low.val.toNat → high.val.toNat < 0x80 →
        low.val.toNat ≤ c.val.toNat ∧ c.val.toNat ≤ high.val.toNat →
        0x21 ≤ c.val.toNat ∧ c.val.toNat < 0x80 := by
      intro low high hlow hhigh hc
      omega
    show 0x21 ≤ c.val.toNat ∧ c.val.toNat < 0x80
    rcases h with ((((h | h) | h) | rfl) | rfl) | rfl
    · exact hrange 'a' 'z' (by decide) (by decide) h
    · exact hrange 'A' 'Z' (by decide) (by decide) h
    · split at h
      · exact hrange '0' '9' (by decide) (by decide) ‹_›
      · cases h
    · decide
    · decide
    · decide

theorem isBlank_of_isTokenSymbol (h : isTokenSymbol s = true) : s.isBlank = false := by
  obtain ⟨hlow, hhigh⟩ := code_of_isTokenSymbol h
  simp only [Symbol.isBlank, Symbol.within, Symbol.blankRanges, List.any_cons, List.any_nil,
    Bool.or_false, Bool.or_eq_false_iff, Bool.and_eq_false_iff, decide_eq_false_iff_not]
  omega

theorem distinct_of_mem (hp : p ∈ patterns) : Distinct p.pieces := by
  have hlast : ∀ accepts least, Distinct [.run accepts least] := fun _ _ => ⟨trivial, .inl rfl⟩
  have hpoint : ∀ w ps, (".eyJ" : Text) = w ∨ ("." : Text) = w → ∀ u, Spelled (.word w :: ps) u →
      ∃ s, u.head? = some s ∧ isKeySymbol s = false := by
    rintro w ps hw u hu
    obtain ⟨v, rfl, -⟩ := hu.word_inv
    rcases hw with rfl | rfl <;> exact ⟨_, rfl, rfl⟩
  simp only [patterns, List.mem_cons, List.not_mem_nil, or_false] at hp
  rcases hp with rfl | rfl | rfl | rfl
  · exact hlast isKeySymbol 10
  · exact hlast isKeySymbol 10
  · refine ⟨hlast isTokenSymbol 20, .inr fun u hu => ?_⟩
    obtain ⟨r, v, rfl, hr, hlong, -⟩ := hu.run_inv
    obtain ⟨s, r, rfl⟩ := List.exists_cons_of_length_pos (Nat.lt_of_lt_of_le (by decide) hlong)
    exact ⟨s, rfl, isBlank_of_isTokenSymbol (hr s List.mem_cons_self)⟩
  · exact ⟨⟨hlast isKeySymbol 1, .inr (hpoint _ _ (.inr rfl))⟩, .inr (hpoint _ _ (.inl rfl))⟩

theorem leads_iff (hp : p ∈ patterns) : p.Leads t ↔ ∃ n, matchLength? p.pieces t = some n := by
  constructor
  · rintro ⟨mid, ⟨after, rfl⟩, hm⟩
    exact matchLength?_of_spelled (distinct_of_mem hp) hm after
  · rintro ⟨n, hn⟩
    exact ⟨t.take n, List.take_prefix n t, (matchLength?_spelled hn).1⟩

theorem Pattern.in_iff : p.In t ↔ ∃ rest, rest <:+ t ∧ p.Leads rest := by
  constructor
  · rintro ⟨before, mid, after, rfl, hm⟩
    exact ⟨mid ++ after, ⟨before, by rw [List.append_assoc]⟩, mid, List.prefix_append _ _, hm⟩
  · rintro ⟨rest, ⟨before, rfl⟩, h⟩
    exact h.in.append_left before

/-- Whether a text is clean shows where the matcher is tried at each of its symbols. -/
theorem clean_iff : Clean t ↔
    ∀ p ∈ patterns, ∀ rest ∈ t.tails, matchLength? p.pieces rest = none := by
  refine forall_congr' fun p => forall_congr' fun hp => ?_
  rw [Pattern.in_iff, not_exists]
  refine forall_congr' fun rest => ?_
  rw [List.mem_tails, leads_iff hp, ← Option.isSome_iff_exists, not_and]
  simp

instance (t : Text) : Decidable (Clean t) := decidable_of_iff _ clean_iff.symm

/-- What every secret begins with. -/
def openings : Text := [.char 's', .char 'B', .char 'e']

/-- What all secrets have in common. -/
structure Shaped (mid : Text) : Prop where
  long : 11 ≤ mid.length
  opens : ∃ s ∈ openings, mid.head? = some s
  closes : ∀ s, mid.getLast? = some s → isTokenSymbol s = true
  bracket : .char '[' ∉ mid

theorem Shaped.of_run {w r : Text} (hw : ∃ s ∈ openings, w.head? = some s) (hb : .char '[' ∉ w)
    (hr : r ≠ []) (ht : ∀ s ∈ r, isTokenSymbol s = true) (hl : 11 ≤ w.length + r.length) :
    Shaped (w ++ r) where
  long := by rwa [List.length_append]
  opens := by
    obtain ⟨s, hs, hw⟩ := hw
    obtain ⟨v, rfl⟩ := List.head?_eq_some_iff.1 hw
    exact ⟨s, hs, rfl⟩
  closes := by
    intro s hs
    rw [List.getLast?_append, List.getLast?_eq_some_getLast hr] at hs
    cases hs
    exact ht _ (List.getLast_mem hr)
  bracket := by
    intro hm
    rcases List.mem_append.1 hm with hm | hm
    · exact hb hm
    · exact absurd (ht _ hm) (by decide)

theorem isTokenSymbol_of_isKeySymbol (h : isKeySymbol s = true) : isTokenSymbol s = true := by
  rw [isTokenSymbol, h]
  rfl

theorem shaped_key {w : Text} (hw : ∃ s ∈ openings, w.head? = some s) (hb : .char '[' ∉ w)
    (h : Spelled [.word w, .run isKeySymbol 10] mid) : Shaped mid := by
  obtain ⟨u, rfl, hu⟩ := h.word_inv
  obtain ⟨r, v, rfl, hr, hlong, hv⟩ := hu.run_inv
  obtain rfl := hv.nil_inv
  rw [List.append_nil]
  have hpos : 0 < w.length := by
    obtain ⟨s, -, hs⟩ := hw
    obtain ⟨v, rfl⟩ := List.head?_eq_some_iff.1 hs
    exact Nat.succ_pos _
  refine .of_run hw hb ?_ (fun s hs => isTokenSymbol_of_isKeySymbol (hr s hs)) (by omega)
  exact List.ne_nil_of_length_pos (by omega)

theorem shaped_bearer (h : Spelled bearer.pieces mid) : Shaped mid := by
  obtain ⟨u, rfl, hu⟩ := h.word_inv
  obtain ⟨b, v, rfl, hb, -, hv⟩ := hu.run_inv
  obtain ⟨r, x, rfl, hr, hlong, hx⟩ := hv.run_inv
  obtain rfl := hx.nil_inv
  rw [List.append_nil, ← List.append_assoc]
  refine .of_run ⟨.char 'B', by decide, rfl⟩ ?_ (List.ne_nil_of_length_pos (by omega)) hr (by omega)
  rw [List.mem_append, not_or]
  exact ⟨by decide, fun hm => absurd (hb _ hm) (by decide)⟩

theorem shaped_webToken (h : Spelled webToken.pieces mid) : Shaped mid := by
  obtain ⟨u, rfl, hu⟩ := h.word_inv
  obtain ⟨a, v, rfl, ha, hla, hv⟩ := hu.run_inv
  obtain ⟨x, rfl, hx⟩ := hv.word_inv
  obtain ⟨b, y, rfl, hb, hlb, hy⟩ := hx.run_inv
  obtain ⟨z, rfl, hz⟩ := hy.word_inv
  obtain ⟨r, o, rfl, hr, hlr, ho⟩ := hz.run_inv
  obtain rfl := ho.nil_inv
  rw [List.append_nil]
  simp only [← List.append_assoc]
  refine .of_run ⟨.char 'e', by decide, rfl⟩ ?_ (List.ne_nil_of_length_pos (by omega))
    (fun s hs => isTokenSymbol_of_isKeySymbol (hr s hs)) ?_
  · simp only [List.mem_append, not_or]
    exact ⟨⟨⟨⟨by decide, fun hm => absurd (ha _ hm) (by decide)⟩, by decide⟩,
      fun hm => absurd (hb _ hm) (by decide)⟩, by decide⟩
  · have h3 : ("eyJ" : Text).length = 3 := rfl
    have h4 : (".eyJ" : Text).length = 4 := rfl
    have h1 : ("." : Text).length = 1 := rfl
    simp only [List.length_append, h3, h4, h1]
    omega

theorem shaped (hp : p ∈ patterns) (h : Spelled p.pieces mid) : Shaped mid := by
  simp only [patterns, List.mem_cons, List.not_mem_nil, or_false] at hp
  rcases hp with rfl | rfl | rfl | rfl
  · exact shaped_key ⟨.char 's', by decide, rfl⟩ (by decide) h
  · exact shaped_key ⟨.char 's', by decide, rfl⟩ (by decide) h
  · exact shaped_bearer h
  · exact shaped_webToken h

/-! Redaction. -/

/-- What is left of a text when the secrets of one kind are masked. -/
inductive Redacts (p : Pattern) : Text → Text → Prop where
  | done : Redacts p [] []
  | kept {t u : Text} (s : Symbol) (hn : ¬ p.Leads (s :: t)) (h : Redacts p t u) :
      Redacts p (s :: t) (s :: u)
  | masked {m t u : Text} (hm : Spelled p.pieces m) (h : Redacts p t u) :
      Redacts p (m ++ t) (p.mask ++ u)

theorem maskFrom_eq (p : Pattern) (n : Nat) (t : Text) : maskFrom p n t = maskFrom p 0 (t.drop n) := by
  induction n generalizing t with
  | zero => rfl
  | succ n ih =>
    cases t with
    | nil => simp [maskFrom]
    | cons s t => rw [maskFrom, ih, List.drop_succ_cons]

theorem redacts (hp : p ∈ patterns) (t : Text) : Redacts p t (p.redact t) := by
  unfold Pattern.redact
  cases t with
  | nil => exact .done
  | cons s t =>
    rw [maskFrom]
    cases hn : matchLength? p.pieces (s :: t) with
    | none =>
      refine .kept s ?_ (redacts hp t)
      rw [leads_iff hp, hn]
      simp
    | some n =>
      obtain ⟨hm, -⟩ := matchLength?_spelled hn
      cases n with
      | zero => exact absurd (shaped hp hm).long (by simp)
      | succ n =>
        have hrest := Redacts.masked hm (redacts hp (t.drop n))
        rw [List.take_succ_cons, List.cons_append, List.take_append_drop] at hrest
        dsimp only
        rw [Nat.add_sub_cancel, maskFrom_eq]
        exact hrest
termination_by t.length
decreasing_by
  · simp
  · simp only [List.length_drop, List.length_cons]
    omega

/-- Wherever a mask could begin a secret, it soon has a bracket. -/
theorem mask_bracket (hp : p ∈ patterns) : ∀ k < p.mask.length, ∀ s ∈ openings,
    (p.mask.drop k).head? = some s → .char '[' ∈ (p.mask.drop k).take 11 := by
  simp only [patterns, List.mem_cons, List.not_mem_nil, or_false] at hp
  rcases hp with rfl | rfl | rfl | rfl <;> decide

theorem prefix_before {x y : Text} (h : mid <+: x ++ s :: y) (hs : s ∉ mid) : mid <+: x := by
  induction x generalizing mid with
  | nil =>
    cases mid with
    | nil => exact List.nil_prefix
    | cons r mid =>
      obtain ⟨rfl, -⟩ := List.cons_prefix_cons.1 h
      exact absurd List.mem_cons_self hs
  | cons r x ih =>
    cases mid with
    | nil => exact List.nil_prefix
    | cons r' mid =>
      obtain ⟨rfl, htail⟩ := List.cons_prefix_cons.1 h
      exact List.cons_prefix_cons.2 ⟨rfl, ih htail fun hm => hs (List.mem_cons_of_mem _ hm)⟩

/-- What a mask shares with a secret, stands in what it masks. -/
theorem prefix_of_mask (hp : p ∈ patterns) {m : Text} (hm : Spelled p.pieces m)
    (hmid : mid <+: p.mask ++ u) (hb : .char '[' ∉ mid)
    (hc : ∀ s, mid.getLast? = some s → isTokenSymbol s = true) : mid <+: m := by
  have hnone : ∀ v, mid <+: .char '[' :: v → mid <+: m := by
    intro v hv
    rw [List.prefix_nil.1 (prefix_before (x := []) hv hb)]
    exact List.nil_prefix
  simp only [patterns, List.mem_cons, List.not_mem_nil, or_false] at hp
  rcases hp with rfl | rfl | rfl | rfl
  · exact hnone _ hmid
  · exact hnone _ hmid
  · -- The word of a header stays, but the blank behind it is no end of a secret.
    obtain ⟨v, rfl, -⟩ := hm.word_inv
    have hword : mid <+: ("Bearer" : Text) ++ [.char ' '] :=
      prefix_before (y := "REDACTED_TOKEN]" ++ u) hmid hb
    rcases List.prefix_concat_iff.1 hword with rfl | hword
    · exact absurd (hc (.char ' ') List.getLast?_concat) (by decide)
    · exact hword.trans (List.prefix_append _ _)
  · exact hnone _ hmid

/-- What could be a secret in what is left of a text, has stood in the text. -/
theorem Redacts.front (hp : p ∈ patterns) (h : Redacts p t u) (hmid : mid <+: u)
    (hb : .char '[' ∉ mid) (hc : ∀ s, mid.getLast? = some s → isTokenSymbol s = true) :
    mid <+: t := by
  induction h generalizing mid with
  | done => exact hmid
  | kept s hn h ih =>
    cases mid with
    | nil => exact List.nil_prefix
    | cons r mid =>
      obtain ⟨rfl, htail⟩ := List.cons_prefix_cons.1 hmid
      refine List.cons_prefix_cons.2 ⟨rfl, ih htail (fun hm => hb (List.mem_cons_of_mem r hm)) ?_⟩
      intro s hs
      exact hc s (by rw [List.getLast?_cons, hs]; rfl)
  | masked hm h ih => exact (prefix_of_mask hp hm hmid hb hc).trans (List.prefix_append _ _)

/-- A secret begins in a text of which something is left with one of the symbols that secrets begin
with. -/
theorem head_of_leads (hp : p ∈ patterns) (ht : t ≠ []) (h : p.Leads (t ++ u)) :
    ∃ s ∈ openings, t.head? = some s := by
  obtain ⟨mid, ⟨after, he⟩, hm⟩ := h
  obtain ⟨s, hs, hhead⟩ := (shaped hp hm).opens
  obtain ⟨v, rfl⟩ := List.head?_eq_some_iff.1 hhead
  obtain ⟨r, t, rfl⟩ := List.exists_cons_of_ne_nil ht
  rw [List.cons_append, List.cons_append] at he
  exact ⟨s, hs, by rw [(List.cons.inj he).1]; rfl⟩

/-- The masking of one kind leaves none of that kind, and none of a kind that was not there. -/
theorem Redacts.not_in (hp : p ∈ patterns) (hq : q ∈ patterns) (h : Redacts p t u)
    (hn : q = p ∨ ¬ q.In t) : ¬ q.In u := by
  induction h with
  | done =>
    rintro ⟨before, mid, after, he, hm⟩
    have hlong := (shaped hq hm).long
    have hempty := congrArg List.length he
    simp only [List.length_nil, List.length_append] at hempty
    omega
  | @kept t u s hnone h ih =>
    intro hin
    have htail : q = p ∨ ¬ q.In t := hn.imp_right fun hn ht => hn (ht.append_left [s])
    rcases hin.append_cases (t := [s]) with hu | ⟨k, hk, mid, hmid, hm⟩
    · exact ih htail hu
    · obtain rfl : k = 0 := by simpa using hk
      have hs := shaped hq hm
      have hlead : q.Leads (s :: t) :=
        ⟨mid, (Redacts.kept s hnone h).front hp hmid hs.bracket hs.closes, hm⟩
      rcases hn with rfl | hn
      · exact hnone hlead
      · exact hn hlead.in
  | @masked m t u hmask h ih =>
    intro hin
    rcases hin.append_cases with hu | ⟨k, hk, hlead⟩
    · exact ih (hn.imp_right fun hn ht => hn (ht.append_left m)) hu
    · have hrest : p.mask.drop k ≠ [] := by simpa using hk
      obtain ⟨s, hopens, hhead⟩ := head_of_leads hq hrest hlead
      have hbracket := mask_bracket hp k hk s hopens hhead
      obtain ⟨mid, ⟨after, he⟩, hm⟩ := hlead
      have hs := shaped hq hm
      have htake : mid.take 11 = (p.mask.drop k ++ u).take 11 := by
        rw [← he, List.take_append_of_le_length hs.long]
      refine hs.bracket (List.mem_of_mem_take (i := 11) ?_)
      rw [htake, List.take_append]
      exact List.mem_append_left _ hbracket

/-- Redaction leaves no secret. -/
theorem clean_redact (t : Text) : Clean (redact t) := by
  have hmem : ∀ p ∈ [vendorKey, apiKey, bearer, webToken], p ∈ patterns := fun p hp => hp
  have hstep : ∀ (ps : List Pattern) (t : Text), (∀ p ∈ ps, p ∈ patterns) → ∀ q ∈ patterns,
      q ∈ ps ∨ ¬ q.In t → ¬ q.In (ps.foldl (fun t pattern => pattern.redact t) t) := by
    intro ps
    induction ps with
    | nil => exact fun t _ q _ hn => hn.resolve_left nofun
    | cons p ps ih =>
      intro t hps q hq hn
      have hp := hps p List.mem_cons_self
      apply ih _ (fun r hr => hps r (List.mem_cons_of_mem p hr)) q hq
      by_cases hqs : q ∈ ps
      · exact .inl hqs
      · refine .inr ((redacts hp t).not_in hp hq ?_)
        exact hn.imp_left fun hm => (List.mem_cons.1 hm).resolve_right hqs
  exact fun q hq => hstep patterns t (fun p hp => hp) q hq (.inl hq)

/-! What is said around a text without secrets. -/

theorem Clean.append_left {lead : Text} (h : Clean t) (hl : ∀ s ∈ lead, s ∉ openings) :
    Clean (lead ++ t) := by
  intro p hp hin
  rcases hin.append_cases with ht | ⟨k, hk, hlead⟩
  · exact h p hp ht
  · obtain ⟨s, hs, hhead⟩ := head_of_leads hp (by simpa using hk) hlead
    exact hl s (List.mem_of_mem_drop (List.mem_of_head? hhead)) hs

theorem Clean.append_right (h : Clean t) (hs : isTokenSymbol s = false) : Clean (t ++ [s]) := by
  rintro p hp ⟨before, mid, after, he, hm⟩
  have hshape := shaped hp hm
  rcases List.eq_nil_or_concat after with rfl | ⟨after, r, rfl⟩
  · rcases List.eq_nil_or_concat mid with rfl | ⟨mid, r, rfl⟩
    · exact absurd hshape.long (by simp)
    · rw [List.append_nil, List.concat_eq_append, ← List.append_assoc] at he
      obtain ⟨-, hlast⟩ := List.append_inj' he rfl
      cases hlast
      have hclose := hshape.closes s (by rw [List.concat_eq_append, List.getLast?_concat])
      rw [hs] at hclose
      cases hclose
  · rw [List.concat_eq_append, ← List.append_assoc] at he
    obtain ⟨ht, -⟩ := List.append_inj' he rfl
    exact h p hp ⟨before, mid, after, ht, hm⟩

end ClipActions.Secret
