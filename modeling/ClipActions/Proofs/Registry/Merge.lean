import ClipActions.Registry
import Mathlib.Data.List.Basic

/-!
Names and their actions. A strict construction succeeds just if no two actions share a name, and
then a name resolves to the one action that has it. Merging keeps names apart, whatever is merged.
-/
namespace ClipActions.Registry

variable {a b : Action} {name : Text} {r : Registry} {v : Verdict}
  {actions all earlier kept plugins : List Action} {after vs : List Verdict}
  {used : List Text}

def Apart (actions : List Action) : Prop :=
  actions.Pairwise fun a b => ∀ name ∈ a.names, name ∉ b.names

section

variable [Runtime]

instance (actions : List Action) : Decidable (Apart actions) :=
  inferInstanceAs (Decidable (actions.Pairwise fun a b => ∀ name ∈ a.names, name ∉ b.names))

end

theorem owner?_eq_some (h : owner? actions name = some a) : a ∈ actions ∧ name ∈ a.names := by
  have hname := List.find?_some h
  exact ⟨List.mem_of_find?_eq_some h, by simpa using hname⟩

theorem owner?_eq_none : owner? actions name = none ↔ ∀ a ∈ actions, name ∉ a.names := by
  simp [owner?]

theorem clash?_eq_none :
    clash? earlier a = none ↔ ∀ name ∈ a.names, ∀ b ∈ earlier, name ∉ b.names := by
  simp [clash?, owner?_eq_none]

/-- The identifier is one of the names, so a clash of identifiers is a clash of names. -/
theorem add_eq_ok : add earlier a = .ok all ↔
    (∀ name ∈ a.names, ∀ b ∈ earlier, name ∉ b.names) ∧ all = earlier ++ [a] := by
  unfold add
  split
  · rename_i h
    simp only [List.any_eq_true, decide_eq_true_eq] at h
    obtain ⟨b, hb, hid⟩ := h
    have hshared : a.id ∈ b.names := hid ▸ List.mem_cons_self
    constructor
    · intro h
      cases h
    · rintro ⟨h, -⟩
      exact absurd hshared (h a.id List.mem_cons_self b hb)
  · split
    · rename_i name owner h
      constructor
      · intro h
        cases h
      · rintro ⟨hnone, -⟩
        rw [clash?_eq_none.2 hnone] at h
        cases h
    · rename_i h
      rw [Except.ok.injEq, eq_comm]
      exact (and_iff_right (clash?_eq_none.1 h)).symm

theorem apart_append_singleton : Apart (earlier ++ [a]) ↔
    Apart earlier ∧ ∀ name ∈ a.names, ∀ b ∈ earlier, name ∉ b.names := by
  unfold Apart
  rw [List.pairwise_append]
  constructor
  · rintro ⟨he, -, h⟩
    exact ⟨he, fun name hn b hb hnb => h b hb a List.mem_cons_self name hnb hn⟩
  · rintro ⟨he, h⟩
    refine ⟨he, List.pairwise_singleton _ _, fun b hb c hc name hnb hn => ?_⟩
    obtain rfl := List.mem_singleton.1 hc
    exact h name hn b hb hnb

theorem foldlM_add_eq_ok (he : Apart earlier) : actions.foldlM add earlier = .ok all ↔
    Apart (earlier ++ actions) ∧ all = earlier ++ actions := by
  induction actions generalizing earlier with
  | nil =>
    simp only [List.foldlM_nil, List.append_nil, he, true_and]
    exact ⟨fun h => (Except.ok.inj h).symm, fun h => h ▸ rfl⟩
  | cons a rest ih =>
    rw [List.foldlM_cons, List.append_cons]
    cases hadd : add earlier a with
    | ok next =>
      obtain ⟨hfresh, rfl⟩ := add_eq_ok.1 hadd
      exact ih (apart_append_singleton.2 ⟨he, hfresh⟩)
    | error f =>
      constructor
      · intro h
        cases h
      · rintro ⟨h, -⟩
        have hnext := (apart_append_singleton.1 (List.pairwise_append.1 h).1).2
        rw [add_eq_ok.2 ⟨hnext, rfl⟩] at hadd
        cases hadd

/-- A registry is made of actions just if no two of them share a name. -/
theorem create_eq_ok : create actions = .ok r ↔ Apart actions ∧ r = ⟨actions⟩ := by
  have hfold : ∀ all, actions.foldlM add [] = .ok all ↔ Apart actions ∧ all = actions :=
    fun _ => foldlM_add_eq_ok List.Pairwise.nil
  unfold create
  cases hall : actions.foldlM add [] with
  | ok all =>
    obtain ⟨hapart, rfl⟩ := (hfold all).1 hall
    show Except.ok (Registry.mk all) = .ok r ↔ _
    rw [Except.ok.injEq, eq_comm]
    exact (and_iff_right hapart).symm
  | error f =>
    constructor
    · intro h
      cases h
    · rintro ⟨hapart, -⟩
      rw [(hfold actions).2 ⟨hapart, rfl⟩] at hall
      cases hall

theorem Apart.unique (h : Apart actions) (ha : a ∈ actions) (hb : b ∈ actions)
    (hna : name ∈ a.names) (hnb : name ∈ b.names) : a = b := by
  induction actions with
  | nil => cases ha
  | cons c rest ih =>
    obtain ⟨hc, hrest⟩ := List.pairwise_cons.1 h
    rcases List.mem_cons.1 ha with hac | ha'
    · rcases List.mem_cons.1 hb with hbc | hb'
      · rw [hac, hbc]
      · exact absurd hnb (hc b hb' name (hac ▸ hna))
    · rcases List.mem_cons.1 hb with hbc | hb'
      · exact absurd hna (hc a ha' name (hbc ▸ hnb))
      · exact ih hrest ha' hb'

/-- A name resolves to the action that has it. -/
theorem resolve_eq_some (h : Apart r.actions) :
    r.resolve name = some a ↔ a ∈ r.actions ∧ name ∈ a.names := by
  constructor
  · exact owner?_eq_some
  · rintro ⟨ha, hn⟩
    cases ho : owner? r.actions name with
    | none => exact absurd hn (owner?_eq_none.1 ho a ha)
    | some b =>
      obtain ⟨hb, hnb⟩ := owner?_eq_some ho
      rw [h.unique ha hb hn hnb]
      exact ho

/-! What becomes of each action in turn. -/

theorem joining_cons (v : Verdict) (vs : List Verdict) :
    joining (v :: vs) = if v.accepted then v.action :: joining vs else joining vs := by
  unfold joining
  rw [List.filter_cons]
  split <;> rfl

theorem joining_append (vs ws : List Verdict) : joining (vs ++ ws) = joining vs ++ joining ws := by
  simp [joining]

theorem mem_conflicts : name ∈ conflicts used a ↔ name ∈ a.names ∧ name ∈ used := by
  simp [conflicts]

theorem map_action_judge (used : List Text) (plugins : List Action) :
    (judge used plugins).map (·.action) = plugins := by
  induction plugins generalizing used with
  | nil => rfl
  | cons a rest ih => rw [judge, List.map_cons, ih]

/-- The names that are in use behind some verdicts. -/
theorem judge_append (used : List Text) (plugins more : List Action) :
    judge used (plugins ++ more) = judge used plugins ++
      judge (used ++ (joining (judge used plugins)).flatMap Action.names) more := by
  induction plugins generalizing used with
  | nil => simp [judge, joining]
  | cons a rest ih =>
    rw [List.cons_append, judge, ih, judge, joining_cons]
    cases (Verdict.mk a (conflicts used a)).accepted <;> simp

/-- Each action is judged by the names that are in use when its turn comes. -/
theorem judge_eq_append {before : List Verdict} (h : judge used plugins = before ++ v :: after) :
    v.conflicts = conflicts (used ++ (joining before).flatMap Action.names) v.action := by
  induction plugins generalizing used before with
  | nil =>
    rw [judge] at h
    cases before <;> cases h
  | cons a rest ih =>
    rw [judge] at h
    cases before with
    | nil =>
      obtain ⟨rfl, -⟩ := List.cons.inj h
      simp [joining]
    | cons w before =>
      obtain ⟨rfl, hrest⟩ := List.cons.inj h
      rw [ih hrest, joining_cons]
      cases (Verdict.mk a (conflicts used a)).accepted <;> simp

theorem accepted_iff (hv : v.conflicts = conflicts used v.action) :
    v.accepted = true ↔ ∀ name ∈ v.action.names, name ∉ used := by
  rw [Verdict.accepted, hv, List.isEmpty_iff, List.eq_nil_iff_forall_not_mem]
  simp only [mem_conflicts, not_and]

/-- Merging keeps names apart. -/
theorem apart_joining (h : Apart kept) (plugins : List Action) :
    Apart (kept ++ joining (verdicts kept plugins)) := by
  have hstep : ∀ (plugins joined : List Action), Apart (kept ++ joined) →
      Apart (kept ++ joined ++ joining (judge ((kept ++ joined).flatMap Action.names) plugins)) := by
    intro plugins
    induction plugins with
    | nil => simp [judge, joining]
    | cons a rest ih =>
      intro joined hj
      rw [judge, joining_cons]
      split
      · rename_i ha
        have hfresh := (accepted_iff rfl).1 ha
        have hnext : Apart (kept ++ (joined ++ [a])) := by
          rw [← List.append_assoc]
          refine apart_append_singleton.2 ⟨hj, fun name hn b hb hnb => hfresh name hn ?_⟩
          exact List.mem_flatMap.2 ⟨b, hb, hnb⟩
        have hrest := ih (joined ++ [a]) hnext
        simpa using hrest
      · exact ih joined hj
  simpa [verdicts] using hstep plugins [] (by simpa using h)

/-- Names that are found earlier in some of a list are found earlier in the list. -/
theorem idxOf_lt_of_filter {p : Text → Bool} {m n : Text} {l : List Text} (hm : p m = true)
    (hn : p n = true) (h : (l.filter p).idxOf m < (l.filter p).idxOf n) :
    l.idxOf m < l.idxOf n := by
  induction l with
  | nil => simp at h
  | cons c l ih =>
    by_cases hcn : c = n
    · subst hcn
      rw [List.filter_cons_of_pos hn, List.idxOf_cons_self] at h
      exact absurd h (Nat.not_lt_zero _)
    · rw [List.idxOf_cons_ne _ hcn]
      by_cases hcm : c = m
      · subst hcm
        rw [List.idxOf_cons_self]
        exact Nat.succ_pos _
      · rw [List.idxOf_cons_ne _ hcm]
        refine Nat.succ_lt_succ (ih ?_)
        by_cases hc : p c = true
        · rw [List.filter_cons_of_pos hc, List.idxOf_cons_ne _ hcm, List.idxOf_cons_ne _ hcn] at h
          exact Nat.lt_of_succ_lt_succ h
        · rwa [List.filter_cons_of_neg hc] at h

theorem eraseDups_pairwise (l : List Text) :
    l.eraseDups.Pairwise fun m n => l.idxOf m < l.idxOf n := by
  induction hl : l.length using Nat.strongRecOn generalizing l with
  | _ size ih =>
    cases l with
    | nil => simp
    | cons c l =>
      rw [List.eraseDups_cons]
      have hshort : (l.filter fun n => !n == c).length < size := by
        rw [← hl, List.length_cons]
        exact Nat.lt_succ_of_le (List.length_filter_le _ _)
      have hother : ∀ n ∈ (l.filter fun n => !n == c).eraseDups, n ≠ c := by
        intro n hn
        simpa using (List.mem_filter.1 (List.mem_eraseDups.1 hn)).2
      refine List.pairwise_cons.2 ⟨fun n hn => ?_, ?_⟩
      · rw [List.idxOf_cons_self, List.idxOf_cons_ne _ (hother n hn).symm]
        exact Nat.succ_pos _
      · refine (ih _ hshort _ rfl).imp_of_mem fun {m n} hm hn h => ?_
        have hlt : l.idxOf m < l.idxOf n :=
          idxOf_lt_of_filter (by simpa using hother m hm) (by simpa using hother n hn) h
        rw [List.idxOf_cons_ne _ (hother m hm).symm, List.idxOf_cons_ne _ (hother n hn).symm]
        exact Nat.succ_lt_succ hlt

/-- The conflicts of an action stand in the order of its names, each once. -/
theorem conflicts_pairwise (used : List Text) (a : Action) :
    (conflicts used a).Pairwise fun m n => a.names.idxOf m < a.names.idxOf n := by
  unfold conflicts
  refine (eraseDups_pairwise _).imp_of_mem fun {m n} hm hn h => ?_
  rw [List.mem_eraseDups, List.mem_filter] at hm hn
  exact idxOf_lt_of_filter hm.2 hn.2 h

/-- The verdicts on plugin actions in turn: what is in use is what the built-in actions and the
plugin actions that have joined before have for names. -/
structure Judged (builtin plugins : List Action) (vs : List Verdict) : Prop where
  actions : vs.map (·.action) = plugins
  included : ∀ before v after, vs = before ++ v :: after →
    (v.accepted = true ↔ ∀ name ∈ v.action.names, ∀ b ∈ builtin ++ joining before, name ∉ b.names)
  conflicts : ∀ before v after, vs = before ++ v :: after → ∀ name, name ∈ v.conflicts ↔
    name ∈ v.action.names ∧ ∃ b ∈ builtin ++ joining before, name ∈ b.names
  order : ∀ v ∈ vs, v.conflicts.Pairwise fun m n => v.action.names.idxOf m < v.action.names.idxOf n

theorem judged_verdicts (kept plugins : List Action) :
    Judged kept plugins (verdicts kept plugins) := by
  have hsplit : ∀ before v after, verdicts kept plugins = before ++ v :: after →
      v.conflicts = Registry.conflicts ((kept ++ joining before).flatMap Action.names) v.action := by
    intro before v after h
    rw [judge_eq_append h, List.flatMap_append]
  refine ⟨map_action_judge _ _, fun before v after h => ?_, fun before v after h name => ?_,
    fun v hv => ?_⟩
  · rw [accepted_iff (hsplit before v after h)]
    simp only [List.mem_flatMap, not_exists, not_and]
  · rw [hsplit before v after h, mem_conflicts, List.mem_flatMap]
  · obtain ⟨before, after, h⟩ := List.append_of_mem hv
    rw [hsplit before v after h]
    exact conflicts_pairwise _ _

/-- A registry of built-in actions and of the plugin actions that have joined them. -/
structure Merged (builtin plugins : List Action) (vs : List Verdict) (r : Registry) : Prop where
  judged : Judged builtin plugins vs
  actions : r.actions = builtin ++ joining vs
  apart : Apart r.actions
  builtin : ∀ b ∈ builtin, ∀ name ∈ b.names, r.resolve name = some b
  resolves : ∀ name a, r.resolve name = some a ↔ a ∈ r.actions ∧ name ∈ a.names
  unresolved : ∀ name, r.resolve name = none ↔ ∀ a ∈ r.actions, name ∉ a.names

theorem merged_verdicts (h : Apart kept) (plugins : List Action) :
    Merged kept plugins (verdicts kept plugins) ⟨kept ++ joining (verdicts kept plugins)⟩ := by
  have hall := apart_joining h plugins
  refine ⟨judged_verdicts kept plugins, rfl, hall, fun b hb name hn => ?_,
    fun name a => resolve_eq_some hall, fun name => owner?_eq_none⟩
  exact (resolve_eq_some hall).2 ⟨List.mem_append_left _ hb, hn⟩

/-- What is merged behind everything else changes nothing before it. -/
theorem joining_verdicts_append (kept plugins more : List Action) : ∃ joined,
    joining (verdicts kept (plugins ++ more)) = joining (verdicts kept plugins) ++ joined := by
  unfold verdicts
  rw [judge_append, joining_append]
  exact ⟨_, rfl⟩

end ClipActions.Registry
