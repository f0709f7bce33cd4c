import ClipActions.Proofs.Registry.Building
import ClipActions.Proofs.Text.Order

/-!
Strict construction. The actions are taken in turn, and the first one with a name of an action before
it is refused. So no clash between two positions goes unseen, in whatever order identifiers and
aliases meet, and a name that an action has twice is no clash.
-/
namespace ClipActions.Registry

variable {a b : Action} {name : Text} {r : Registry} {f : Failure}
  {actions earlier : List Action}

/-! Refusals. -/

/-- Why an action may not stand behind others. -/
inductive Refused (earlier : List Action) (a : Action) : Failure → Prop
  /-- One of them has its identifier for an identifier. -/
  | identifier (b : Action) (hb : b ∈ earlier) (hid : b.id = a.id) :
      Refused earlier a (.duplicateId a.id)
  /-- They have other identifiers, and the first of its names that is in use is one of `b`'s. -/
  | name (free : List Text) (name : Text) (rest : List Text) (b : Action)
      (hid : ∀ c ∈ earlier, c.id ≠ a.id) (hnames : a.names = free ++ name :: rest)
      (hfree : ∀ n ∈ free, ∀ c ∈ earlier, n ∉ c.names) (hb : b ∈ earlier) (hname : name ∈ b.names) :
      Refused earlier a (.nameTaken name a.id b.id)

theorem add_error (h : add earlier a = .error f) : Refused earlier a f := by
  unfold add at h
  split at h
  · rename_i hany
    simp only [List.any_eq_true, decide_eq_true_eq] at hany
    obtain ⟨b, hb, hid⟩ := hany
    cases h
    exact .identifier b hb hid
  · rename_i hany
    simp only [List.any_eq_true, decide_eq_true_eq, not_exists, not_and] at hany
    split at h
    · rename_i name owner hclash
      cases h
      obtain ⟨free, n, rest, hnames, howner, hfree⟩ := List.findSome?_eq_some_iff.1 hclash
      obtain ⟨o, ho, hpair⟩ := Option.map_eq_some_iff.1 howner
      obtain ⟨rfl, rfl⟩ := Prod.mk.inj hpair
      obtain ⟨hmem, hname⟩ := owner?_eq_some ho
      refine .name free n rest o hany hnames (fun m hm => ?_) hmem hname
      exact owner?_eq_none.1 (Option.map_eq_none_iff.1 (hfree m hm))
    · cases h

/-- What is refused is the first action that clashes with those before it. -/
theorem foldlM_add_error (he : Apart earlier) (h : actions.foldlM add earlier = .error f) :
    ∃ before a after, actions = before ++ a :: after ∧ Apart (earlier ++ before) ∧
      Refused (earlier ++ before) a f := by
  induction actions generalizing earlier with
  | nil => cases h
  | cons a rest ih =>
    rw [List.foldlM_cons] at h
    cases hadd : add earlier a with
    | error g =>
      rw [hadd] at h
      cases h
      refine ⟨[], a, rest, rfl, ?_, ?_⟩
      · simpa using he
      · simpa using add_error hadd
    | ok next =>
      rw [hadd] at h
      obtain ⟨hfresh, rfl⟩ := add_eq_ok.1 hadd
      obtain ⟨before, b, after, rfl, hapart, hrefused⟩ :=
        ih (apart_append_singleton.2 ⟨he, hfresh⟩) h
      rw [List.append_assoc, List.singleton_append] at hapart hrefused
      exact ⟨a :: before, b, after, rfl, hapart, hrefused⟩

theorem create_error (h : create actions = .error f) :
    ∃ before a after, actions = before ++ a :: after ∧ Apart before ∧ Refused before a f := by
  unfold create at h
  cases hall : actions.foldlM add [] with
  | ok all =>
    rw [hall] at h
    cases h
  | error g =>
    rw [hall] at h
    cases h
    simpa using foldlM_add_error List.Pairwise.nil hall

/-! Positions. -/

/-- That two positions share no name may be said in either order. -/
theorem apart_iff : Apart actions ↔ ∀ i j (hi : i < actions.length) (hj : j < actions.length),
    i ≠ j → ∀ name ∈ actions[i].names, name ∉ actions[j].names := by
  unfold Apart
  rw [List.pairwise_iff_getElem]
  constructor
  · intro h i j hi hj hne name hni hnj
    rcases Nat.lt_or_gt_of_ne hne with hij | hji
    · exact h i j hi hj hij name hni hnj
    · exact h j i hj hi hji name hnj hni
  · intro h i j hi hj hij
    exact h i j hi hj (Nat.ne_of_lt hij)

/-- Positions that share no name have identifiers of their own. -/
theorem Apart.nodup_ids (h : Apart actions) : (actions.map (·.id)).Nodup := by
  unfold List.Nodup
  rw [List.pairwise_map]
  refine h.imp fun {a b} hab hid => ?_
  have hshared : a.id ∈ b.names := hid ▸ List.mem_cons_self
  exact hab a.id List.mem_cons_self hshared

/-- Sorting texts that are all different leaves each below the next. -/
theorem ascending_sort {ts : List Text} (h : ts.Nodup) :
    (Text.sort ts).Pairwise fun s t => Text.le s t = true ∧ s ≠ t := by
  have hnodup : (Text.sort ts).Nodup := (Text.sort_perm ts).nodup_iff.2 h
  exact (Text.pairwise_sort ts).and hnodup

/-- A registry of given actions, no two of which share a name. -/
structure Strict (actions : List Action) (r : Registry) : Prop where
  kept : r.actions = actions
  resolves : ∀ name a, r.resolve name = some a ↔ a ∈ actions ∧ name ∈ a.names
  unresolved : ∀ name, r.resolve name = none ↔ ∀ a ∈ actions, name ∉ a.names
  ascending : r.ids.Pairwise fun s t => Text.le s t = true ∧ s ≠ t
  ids : r.ids.Perm (actions.map (·.id))

theorem Apart.strict (h : Apart actions) : Strict actions ⟨actions⟩ where
  kept := rfl
  resolves _ _ := resolve_eq_some h
  unresolved _ := owner?_eq_none
  ascending := ascending_sort h.nodup_ids
  ids := Text.sort_perm _

/-- A registry is built just if no name of one position is a name of another. It then has the actions
in their order, a name resolves to the action that has it, and the identifiers ascend. Otherwise the
first action that clashes with those before it is refused, and the refusal names the clash. -/
theorem create_strict (actions : List Action) :
    ((∃ r, create actions = .ok r) ↔
      ∀ i j (hi : i < actions.length) (hj : j < actions.length), i ≠ j →
        ∀ name ∈ actions[i].names, name ∉ actions[j].names) ∧
    (∀ r, create actions = .ok r → Strict actions r) ∧
    ∀ f, create actions = .error f → ∃ before a after, actions = before ++ a :: after ∧
      Apart before ∧ Refused before a f := by
  refine ⟨?_, ?_, fun f h => create_error h⟩
  · rw [← apart_iff]
    constructor
    · rintro ⟨r, h⟩
      exact (create_eq_ok.1 h).1
    · intro h
      exact ⟨⟨actions⟩, create_eq_ok.2 ⟨h, rfl⟩⟩
  · intro r h
    obtain ⟨hapart, rfl⟩ := create_eq_ok.1 h
    exact hapart.strict

/-- An action that has its own name twice is no clash, and the same action listed twice is one. -/
theorem create_strict_twice :
    (∃ r, create [idle "up" ["up", "shout"], idle "loud" []] = .ok r ∧
      r.resolve "shout" = some (idle "up" ["up", "shout"]) ∧ r.resolve "quiet" = none ∧
      r.ids = ["loud", "up"]) ∧
    ¬ ∃ r, create [idle "up" [], idle "up" []] = .ok r := by
  obtain ⟨hbuilt, hstrict, -⟩ := create_strict [idle "up" ["up", "shout"], idle "loud" []]
  obtain ⟨r, hr⟩ := hbuilt.2 (apart_iff.1 (by decide))
  have h := hstrict r hr
  constructor
  · refine ⟨r, hr, (h.resolves _ _).2 ⟨List.mem_cons_self, by decide⟩,
      (h.unresolved _).2 (by decide), ?_⟩
    rw [Registry.ids, h.kept]
    exact (Text.sort_unique (by decide) (by decide)).symm
  · rw [(create_strict _).1]
    intro hpositions
    exact hpositions 0 1 (by decide) (by decide) (by decide) "up" (by decide) (by decide)

end ClipActions.Registry
