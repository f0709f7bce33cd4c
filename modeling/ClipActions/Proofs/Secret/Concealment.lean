import ClipActions.Proofs.Secret.Surroundings

/-!
Redaction says of a credential no more than its kind. A credential that stands between blanks is
masked as a whole, whatever it is, unless a pass for an earlier kind has broken it up: then the pass
for its own kind no longer covers what is left of it.
-/
namespace ClipActions.Secret

variable {p q : Pattern} {ps : List Piece} {kinds : List Pattern} {t before after mid : Text}
  {s : Symbol} {n : Nat}

/-! One pass after the other. -/

/-- What some passes leave of a text. -/
def passes (ps : List Pattern) (t : Text) : Text := ps.foldl (fun t pattern => pattern.redact t) t

/-- Passes that find nothing in a text leave it between what they leave of its surroundings. -/
theorem passes_kept (hk : kinds ⊆ patterns) (hb : Before before)
    (h : ∀ q ∈ kinds, ∀ k < mid.length, ¬ q.Leads (mid.drop k ++ after)) :
    passes kinds (before ++ (mid ++ after)) =
      passes kinds before ++ (mid ++ passes kinds after) := by
  induction kinds generalizing before after with
  | nil => rfl
  | cons q kinds ih =>
    obtain ⟨hq, hk⟩ := List.cons_subset.1 hk
    obtain ⟨hkept, hrest⟩ := List.forall_mem_cons.1 h
    have hfirst : q.redact (before ++ (mid ++ after)) =
        q.redact before ++ (mid ++ q.redact after) := by
      rw [redact_append hq (hb.parts hq _), redact_kept hq hkept]
    have hlater : ∀ r ∈ kinds, ∀ k < mid.length, ¬ r.Leads (mid.drop k ++ q.redact after) := by
      rintro r hr k hk' ⟨m, hm, hspelled⟩
      have hdrop : ∀ j < (mid.drop k).length, ¬ q.Leads ((mid.drop k).drop j ++ after) := by
        intro j hj
        rw [List.length_drop] at hj
        rw [List.drop_drop]
        exact hkept (k + j) (by omega)
      have hshape := shaped (hk hr) hspelled
      rw [← redact_kept hq hdrop] at hm
      have hfront := (redacts hq _).front hq hm hshape.bracket hshape.closes
      exact hrest r hr k hk' ⟨m, hfront, hspelled⟩
    simp only [passes, List.foldl_cons, hfirst] at ih ⊢
    exact ih hk (hb.redact hq) hlater

/-- A mask stays between what further passes leave of its surroundings. -/
theorem passes_masked (hk : kinds ⊆ patterns) (hp : p ∈ patterns) (hb : Before before) :
    passes kinds (before ++ (p.mask ++ after)) =
      passes kinds before ++ (p.mask ++ passes kinds after) := by
  induction kinds generalizing before after with
  | nil => rfl
  | cons q kinds ih =>
    obtain ⟨hq, hk⟩ := List.cons_subset.1 hk
    have hmask : q.Parts p.mask after := by
      obtain ⟨front, hfront⟩ := mask_eq hp
      have hshuns := shuns_bracket hq
      intro k hk'
      rw [hfront, List.length_append, List.length_singleton] at hk'
      rw [hfront, List.drop_append_of_le_length (by omega), List.append_assoc, List.cons_append,
        matchLength?_shuns hshuns, matchLength?_shuns hshuns]
    have hfirst : q.redact (before ++ (p.mask ++ after)) =
        q.redact before ++ (p.mask ++ q.redact after) := by
      rw [redact_append hq (hb.parts hq _), redact_append hq hmask,
        Pattern.redact_eq_self hq (clean_mask hp q hq)]
    simp only [passes, List.foldl_cons, hfirst] at ih ⊢
    exact ih hk (hb.redact hq)

theorem passes_before (hk : kinds ⊆ patterns) (hb : Before before) :
    Before (passes kinds before) := by
  induction kinds generalizing before with
  | nil => exact hb
  | cons q kinds ih =>
    obtain ⟨hq, hk⟩ := List.cons_subset.1 hk
    exact ih hk (hb.redact hq)

theorem passes_behind (hk : kinds ⊆ patterns) (ha : Behind after) :
    Behind (passes kinds after) := by
  induction kinds generalizing after with
  | nil => exact ha
  | cons q kinds ih =>
    obtain ⟨hq, hk⟩ := List.cons_subset.1 hk
    exact ih hk (ha.redact hq)

/-! A credential as a whole. -/

theorem matchLength?_whole (hd : Distinct ps) (h : Spelled ps mid)
    (hlast : ∀ piece, ps.getLast? = some piece → piece.Solid) (ha : Behind after) :
    matchLength? ps (mid ++ after) = some mid.length := by
  induction h with
  | nil => rfl
  | @cons piece ps t u ht hu ih =>
    have hlast' : ∀ piece, ps.getLast? = some piece → piece.Solid :=
      fun x hx => hlast x (by rw [List.getLast?_cons, hx]; rfl)
    rw [matchLength?, List.append_assoc, List.length_append]
    cases piece with
    | word w =>
      obtain rfl : t = w := ht
      have hw : (Piece.word t).take? (t ++ (u ++ after)) = some t.length :=
        if_pos (Text.startsWith_iff.2 (List.prefix_append _ _))
      rw [hw]
      simp only [Option.bind_eq_bind, Option.bind_some, List.drop_left, ih hd hlast']
      rfl
    | run accepts least =>
      obtain ⟨hd, hends⟩ := hd
      obtain ⟨haccepts, hleast⟩ := ht
      have hself : (Piece.run accepts least).take? t = some t.length := by
        simp only [Piece.take?, List.takeWhile_eq_self_iff.2 haccepts, if_pos hleast]
      have hrun : (Piece.run accepts least).take? (t ++ (u ++ after)) = some t.length := by
        rcases hends with rfl | hstop
        · have hsolid : (Piece.run accepts least).Solid := hlast _ rfl
          rw [hu.nil_inv, List.nil_append, Meet.take? (.inr ha) hsolid, hself]
        · obtain ⟨s, hs, hno⟩ := hstop u hu
          obtain ⟨v, rfl⟩ := List.head?_eq_some_iff.1 hs
          have hshuns : (Piece.run accepts least).Shuns s := hno
          rw [List.cons_append, hshuns.take?, hself]
      rw [hrun]
      simp only [Option.bind_eq_bind, Option.bind_some, List.drop_left, ih hd hlast']
      rfl

theorem solid_getLast (hp : p ∈ patterns) :
    ∀ piece, p.pieces.getLast? = some piece → piece.Solid := by
  simp only [patterns, List.mem_cons, List.not_mem_nil, or_false] at hp
  rcases hp with rfl | rfl | rfl | rfl <;> rintro piece ⟨⟩
  · exact solid_key _
  · exact solid_key _
  · exact solid_token _
  · exact solid_key _

theorem redact_whole (hp : p ∈ patterns) (h : Spelled p.pieces mid) (ha : Behind after) :
    p.redact (mid ++ after) = p.mask ++ p.redact after := by
  have hm := matchLength?_whole (distinct_of_mem hp) h (solid_getLast hp) ha
  rw [redact_of_some hm (pos_of_matchLength? hp hm), List.drop_left]

inductive Kind where
  | key
  | header
  | webToken
  deriving DecidableEq, Repr

namespace Kind

def pattern : Kind → Pattern
  | key => apiKey
  | header => bearer
  | webToken => Secret.webToken

/-- The passes before the one for a kind. -/
def earlier : Kind → List Pattern
  | key => [vendorKey]
  | header => [vendorKey, apiKey]
  | webToken => [vendorKey, apiKey, bearer]

def later : Kind → List Pattern
  | key => [bearer, Secret.webToken]
  | header => [Secret.webToken]
  | webToken => []

theorem patterns_eq (k : Kind) : patterns = k.earlier ++ k.pattern :: k.later := by
  cases k <;> rfl

/-- No earlier pass breaks a credential up: nothing that it masks begins inside. -/
def Whole (k : Kind) (mid after : Text) : Prop :=
  ∀ q ∈ k.earlier, ∀ n, 0 < n → n < mid.length → ¬ q.Leads (mid.drop n ++ after)

end Kind

theorem not_leads_of_head {w : Text} {r : Symbol} (hq : q.pieces = .word w :: ps)
    (hw : w.head? = some s) (ht : t.head? = some r) (hne : s ≠ r) : ¬ q.Leads (t ++ after) := by
  rintro ⟨m, ⟨rest, he⟩, hm⟩
  rw [hq] at hm
  obtain ⟨v, rfl, -⟩ := hm.word_inv
  obtain ⟨w, rfl⟩ := List.head?_eq_some_iff.1 hw
  obtain ⟨t, rfl⟩ := List.head?_eq_some_iff.1 ht
  exact hne (List.cons.inj he).1

theorem spelled_run {w : Text} {accepts : Symbol → Bool} :
    Spelled [.word w, .run accepts n] t ↔
      ∃ r, t = w ++ r ∧ (∀ s ∈ r, accepts s = true) ∧ n ≤ r.length := by
  constructor
  · intro h
    obtain ⟨u, rfl, hu⟩ := h.word_inv
    obtain ⟨r, v, rfl, hr, hlong, hv⟩ := hu.run_inv
    rw [hv.nil_inv, List.append_nil]
    exact ⟨r, rfl, hr, hlong⟩
  · rintro ⟨r, rfl, hr, hlong⟩
    rw [← List.append_nil r]
    exact .cons rfl (.cons ⟨hr, hlong⟩ .nil)

/-- A vendor's key is the whole key that it begins. -/
theorem spelled_vendorKey (hm : Spelled apiKey.pieces mid) (ha : Behind after)
    (h : vendorKey.Leads (mid ++ after)) : Spelled vendorKey.pieces mid := by
  have hp : vendorKey ∈ patterns := List.mem_cons_self
  have hsolid := (solid_or_bearer hp).resolve_right fun he => by cases congrArg Pattern.mask he
  obtain ⟨n, hn⟩ := (leads_iff hp).1 h
  rw [Meet.matchLength? (.inr ha) hsolid] at hn
  obtain ⟨r, hfront, hr, hlong⟩ := spelled_run.1 (matchLength?_spelled hn).1
  obtain ⟨v, rfl, hv, -⟩ := spelled_run.1 hm
  have hkeys : ∀ s ∈ ("sk-" ++ v : Text), isKeySymbol s = true := by
    intro s hs
    rcases List.mem_append.1 hs with hs | hs
    · exact (by decide : ∀ s ∈ ("sk-" : Text), isKeySymbol s = true) s hs
    · exact hv s hs
  have hrest := List.take_append_drop n ("sk-" ++ v : Text)
  rw [hfront, List.append_assoc] at hrest
  refine spelled_run.2 ⟨_, hrest.symm, fun s hs => ?_, ?_⟩
  · rcases List.mem_append.1 hs with hs | hs
    · exact hr s hs
    · exact hkeys s (List.mem_of_mem_drop hs)
  · rw [List.length_append]
    omega

variable {k : Kind} {c d : Text}

namespace Kind

theorem earlier_subset (k : Kind) : k.earlier ⊆ patterns := by
  rw [k.patterns_eq]
  exact List.subset_append_left _ _

theorem later_subset (k : Kind) : k.later ⊆ patterns := by
  rw [k.patterns_eq]
  exact fun q hq => List.mem_append_right _ (List.mem_cons_of_mem _ hq)

theorem pattern_mem (k : Kind) : k.pattern ∈ patterns := by
  rw [k.patterns_eq]
  exact List.mem_append_right _ List.mem_cons_self

/-- No earlier pass masks the beginning of a credential, except that keys of a vendor are keys. -/
theorem not_leads_front (hk : k ≠ key) (hc : Spelled k.pattern.pieces c) :
    ∀ q ∈ k.earlier, ¬ q.Leads (c ++ after) := by
  intro q hq
  cases k with
  | key => exact absurd rfl hk
  | header =>
    obtain ⟨v, rfl, -⟩ := hc.word_inv
    simp only [earlier, List.mem_cons, List.not_mem_nil, or_false] at hq
    rcases hq with rfl | rfl <;>
      exact not_leads_of_head rfl (s := .char 's') rfl (r := .char 'B') rfl (by decide)
  | webToken =>
    obtain ⟨v, rfl, -⟩ := hc.word_inv
    simp only [earlier, List.mem_cons, List.not_mem_nil, or_false] at hq
    rcases hq with rfl | rfl | rfl
    · exact not_leads_of_head rfl (s := .char 's') rfl (r := .char 'e') rfl (by decide)
    · exact not_leads_of_head rfl (s := .char 's') rfl (r := .char 'e') rfl (by decide)
    · exact not_leads_of_head rfl (s := .char 'B') rfl (r := .char 'e') rfl (by decide)

/-- Whether a credential is whole shows where the matchers of the earlier passes are tried inside. -/
theorem whole_iff : k.Whole c after ↔ ∀ q ∈ k.earlier, ∀ n < c.length, 0 < n →
    matchLength? q.pieces (c.drop n ++ after) = none := by
  refine forall_congr' fun q => forall_congr' fun hq => forall_congr' fun n => ?_
  rw [leads_iff (k.earlier_subset hq), ← Option.isSome_iff_exists, Option.not_isSome_iff_eq_none]
  exact forall_comm

instance (k : Kind) (c after : Text) : Decidable (k.Whole c after) :=
  decidable_of_iff _ whole_iff.symm

end Kind

theorem passes_append (kinds more : List Pattern) (t : Text) :
    passes (kinds ++ more) t = passes more (passes kinds t) := List.foldl_append

/-- A credential that the earlier passes leave alone is masked by the pass for its kind. -/
theorem passes_spelled (hb : Before before) (ha : Behind after) (hc : Spelled k.pattern.pieces c)
    (h : ∀ q ∈ k.earlier, ∀ n < c.length, ¬ q.Leads (c.drop n ++ after)) :
    passes (k.earlier ++ [k.pattern]) (before ++ (c ++ after)) =
      passes (k.earlier ++ [k.pattern]) before ++
        (k.pattern.mask ++ passes (k.earlier ++ [k.pattern]) after) := by
  have hp := k.pattern_mem
  have hbefore := passes_before k.earlier_subset hb
  have hbehind := passes_behind k.earlier_subset ha
  rw [passes_append, passes_append, passes_append, passes_kept k.earlier_subset hb h]
  show k.pattern.redact _ = _
  rw [redact_append hp (hbefore.parts hp _), redact_whole hp hc hbehind]
  rfl

theorem passes_credential (hb : Before before) (ha : Behind after) (hc : Spelled k.pattern.pieces c)
    (hw : k.Whole c after) : passes (k.earlier ++ [k.pattern]) (before ++ (c ++ after)) =
      passes (k.earlier ++ [k.pattern]) before ++
        (k.pattern.mask ++ passes (k.earlier ++ [k.pattern]) after) := by
  by_cases hfront : ∀ q ∈ k.earlier, ¬ q.Leads (c ++ after)
  · refine passes_spelled hb ha hc fun q hq n hn => ?_
    rcases Nat.eq_zero_or_pos n with rfl | hpos
    · exact hfront q hq
    · exact hw q hq n hpos hn
  · -- Only a key can begin with what an earlier pass masks: a key of the vendor's.
    obtain rfl : k = .key := by
      by_contra hk
      exact hfront (Kind.not_leads_front hk hc)
    have hlead : vendorKey.Leads (c ++ after) := by
      by_contra hn
      exact hfront fun q hq => by rwa [List.mem_singleton.1 hq]
    have hv : vendorKey ∈ patterns := List.mem_cons_self
    have hfirst : vendorKey.redact (before ++ (c ++ after)) =
        vendorKey.redact before ++ (keyMask ++ vendorKey.redact after) := by
      rw [redact_append hv (hb.parts hv _), redact_whole hv (spelled_vendorKey hc ha hlead) ha]
      rfl
    show passes [apiKey] (vendorKey.redact _) = _
    rw [hfirst]
    have hkey : [apiKey] ⊆ patterns :=
      List.cons_subset.2 ⟨Kind.key.pattern_mem, List.nil_subset _⟩
    exact passes_masked hkey hv (hb.redact hv)

theorem redact_credential (hb : Before before) (ha : Behind after) (hc : Spelled k.pattern.pieces c)
    (hw : k.Whole c after) :
    redact (before ++ c ++ after) = redact before ++ k.pattern.mask ++ redact after := by
  have hsplit : ∀ t, redact t = passes k.later (passes (k.earlier ++ [k.pattern]) t) := by
    intro t
    rw [← passes_append, List.append_assoc, List.singleton_append, ← k.patterns_eq]
    rfl
  have hsubset : k.earlier ++ [k.pattern] ⊆ patterns :=
    List.append_subset.2 ⟨k.earlier_subset, List.cons_subset.2 ⟨k.pattern_mem, List.nil_subset _⟩⟩
  rw [hsplit, hsplit, hsplit, List.append_assoc, List.append_assoc, passes_credential hb ha hc hw]
  exact passes_masked k.later_subset k.pattern_mem (passes_before hsubset hb)

/-- What stands between blanks is masked as a whole, unless an earlier pass breaks it up: nothing
tells two credentials of a kind apart. -/
theorem redact_conceals (hb : Before before) (ha : Behind after)
    (hc : Spelled k.pattern.pieces c) (hd : Spelled k.pattern.pieces d)
    (hwc : k.Whole c after) (hwd : k.Whole d after) :
    redact (before ++ c ++ after) = redact (before ++ d ++ after) ∧
      redact (before ++ c ++ after) = redact before ++ k.pattern.mask ++ redact after := by
  have hmasked := redact_credential hb ha hc hwc
  exact ⟨hmasked.trans (redact_credential hb ha hd hwd).symm, hmasked⟩

/-- What stands before a key in a message of a service. -/
def refusal : Text := "Incorrect API key provided: "

theorem before_refusal : Before refusal where
  blank := by decide
  closed := by
    rintro ⟨lead, blanks, he, -⟩
    have hmem : Symbol.char 'B' ∈ refusal := by
      rw [he]
      simp [Text.ofString]
    exact absurd hmem (by decide)

/-- A key and a key of the vendor's in one message. -/
theorem redact_conceals_keys :
    Kind.key.Whole ("sk-" ++ "0123456789") " (401)" ∧
      Kind.key.Whole ("sk-" ++ "ant-abcdefghij") " (401)" ∧
      redact (refusal ++ ("sk-" ++ "0123456789") ++ " (401)") =
        redact (refusal ++ ("sk-" ++ "ant-abcdefghij") ++ " (401)") := by
  have hfirst : Kind.key.Whole ("sk-" ++ "0123456789") " (401)" := by decide
  have hsecond : Kind.key.Whole ("sk-" ++ "ant-abcdefghij") " (401)" := by decide
  have hbehind : Behind " (401)" := by
    rintro s ⟨⟩
    decide
  have hc : Spelled Kind.key.pattern.pieces ("sk-" ++ "0123456789") :=
    spelled_run.2 ⟨_, rfl, by decide, by decide⟩
  have hd : Spelled Kind.key.pattern.pieces ("sk-" ++ "ant-abcdefghij") :=
    spelled_run.2 ⟨_, rfl, by decide, by decide⟩
  exact ⟨hfirst, hsecond, (redact_conceals before_refusal hbehind hc hd hfirst hsecond).1⟩

/-- A key that holds a key of the vendor's. -/
def brokenKey : Text := "sk-abcdefghisk-ant-0123456789"

/-- A key of the vendor's inside a key takes only its own part of it, and what is left is too short
to be a key: it shows. -/
theorem redact_reveals : Before [] ∧ Behind [] ∧
    Spelled apiKey.pieces brokenKey ∧ Spelled apiKey.pieces "sk-0123456789" ∧
    redact ([] ++ brokenKey ++ []) = "sk-abcdefghi[REDACTED_API_KEY]" ∧
    redact ([] ++ Text.ofString "sk-0123456789" ++ []) = "[REDACTED_API_KEY]" := by
  have hclosed : ¬ OpensHeader [] := by
    rintro ⟨lead, blanks, he, -⟩
    simp [Text.ofString] at he
  have hbroken : Spelled apiKey.pieces brokenKey :=
    spelled_run.2 ⟨"abcdefghisk-ant-0123456789", by decide, by decide, by decide⟩
  have hplain : Spelled apiKey.pieces "sk-0123456789" :=
    spelled_run.2 ⟨"0123456789", by decide, by decide, by decide⟩
  exact ⟨⟨nofun, hclosed⟩, nofun, hbroken, hplain, by decide +kernel, by decide +kernel⟩

end ClipActions.Secret
