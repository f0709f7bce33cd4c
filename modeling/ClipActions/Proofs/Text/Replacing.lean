import ClipActions.Proofs.Text.Leads

/-!
Replacing one text by another: what is found, what is passed over, and which texts are kept as they
are.
-/
namespace ClipActions.Text

variable {old new t u : Text} {s : Symbol}

theorem replaceAll_lead (h : old ≠ []) (new t : Text) :
    replaceAll old new (old ++ t) = new ++ replaceAll old new t := by
  cases old with
  | nil => exact absurd rfl h
  | cons a old =>
    have hfound : dropLead? (a :: old) (a :: (old ++ t)) = some t := dropLead?_append (a :: old) t
    rw [List.cons_append, replaceAll, if_neg h]
    split
    · rename_i after heq
      rw [hfound] at heq
      cases heq
      rfl
    · rename_i heq
      rw [hfound] at heq
      cases heq

theorem replaceAll_cons (h : ¬ old <+: s :: t) :
    replaceAll old new (s :: t) = s :: replaceAll old new t := by
  rw [replaceAll]
  split
  · rename_i hnil
    exact absurd (hnil ▸ List.nil_prefix) h
  · split
    · rename_i after heq
      exact absurd ⟨after, (append_of_dropLead? heq).symm⟩ h
    · rfl

/-- A text goes on with an occurrence or with a symbol that begins none. -/
theorem induction_replaceAll {motive : Text → Prop} (ho : old ≠ []) (nil : motive [])
    (lead : ∀ t, motive t → motive (old ++ t))
    (cons : ∀ s t, ¬ old <+: s :: t → motive t → motive (s :: t)) (t : Text) : motive t := by
  induction hn : t.length using Nat.strongRecOn generalizing t with
  | ind n ih =>
    subst hn
    by_cases hold : old <+: t
    · obtain ⟨rest, rfl⟩ := hold
      refine lead rest (ih _ ?_ rest rfl)
      have := List.length_pos_iff.2 ho
      rw [List.length_append]
      omega
    · cases t with
      | nil => exact nil
      | cons s t => exact cons s t hold (ih _ (by simp) t rfl)

/-- An occurrence does not go beyond a symbol that it does not hold. -/
theorem lead_of_append_cons (hs : s ∉ old) (h : old <+: t ++ s :: u) : old <+: t := by
  obtain ⟨after, h⟩ := h
  rcases List.append_eq_append_iff.1 h with ⟨rest, rfl, -⟩ | ⟨rest, rfl, hrest⟩
  · exact List.prefix_append old rest
  · cases rest with
    | nil => simp
    | cons r rest =>
      obtain ⟨rfl, -⟩ := List.cons.inj hrest
      exact absurd (List.mem_append_right t List.mem_cons_self) hs

theorem replaceAll_append_cons (ho : old ≠ []) (hs : s ∉ old) (new t u : Text) :
    replaceAll old new (t ++ s :: u) = replaceAll old new t ++ s :: replaceAll old new u := by
  have hnone : ¬ old <+: s :: u := by
    intro h
    cases old with
    | nil => exact ho rfl
    | cons a old =>
      obtain ⟨rfl, -⟩ := List.cons_prefix_cons.1 h
      exact hs List.mem_cons_self
  induction t using induction_replaceAll ho with
  | nil => rw [List.nil_append, replaceAll_cons hnone, replaceAll, List.nil_append]
  | lead t ih => rw [List.append_assoc, replaceAll_lead ho, ih, replaceAll_lead ho, List.append_assoc]
  | cons r t hr ih =>
    have hlonger : ¬ old <+: r :: (t ++ s :: u) := fun h =>
      hr (lead_of_append_cons (t := r :: t) hs h)
    rw [List.cons_append, replaceAll_cons hlonger, ih, replaceAll_cons hr, List.cons_append]

theorem not_prefix_of_head {r : Symbol} (ho : old.head? = some s) (hr : s ≠ r) :
    ¬ old <+: r :: t := by
  cases old with
  | nil => cases ho
  | cons a old =>
    cases ho
    exact fun h => hr (List.cons_prefix_cons.1 h).1

/-- What does not hold the first symbol of an occurrence is passed over. -/
theorem replaceAll_passes (ho : old.head? = some s) (hs : s ∉ t) (new u : Text) :
    replaceAll old new (t ++ u) = t ++ replaceAll old new u := by
  induction t with
  | nil => rfl
  | cons r t ih =>
    obtain ⟨hr, ht⟩ := not_or.1 (mt List.mem_cons.2 hs)
    rw [List.cons_append, replaceAll_cons (not_prefix_of_head ho hr), ih ht, List.cons_append]

theorem replaceAll_eq_self (h : ¬ old <:+: t) (new : Text) : replaceAll old new t = t := by
  induction t with
  | nil => rw [replaceAll]
  | cons s t ih =>
    rw [List.infix_cons_iff, not_or] at h
    rw [replaceAll_cons h.1, ih h.2]

theorem replaceAll_self (ho : old ≠ []) (t : Text) : replaceAll old old t = t := by
  induction t using induction_replaceAll ho with
  | nil => rw [replaceAll]
  | lead t ih => rw [replaceAll_lead ho, ih]
  | cons s t hs ih => rw [replaceAll_cons hs, ih]

/-- Longer insertions make no text shorter, and shorter ones make none longer. -/
theorem length_replaceAll (ho : old ≠ []) (new t : Text) :
    (old.length ≤ new.length → t.length ≤ (replaceAll old new t).length) ∧
    (new.length ≤ old.length → (replaceAll old new t).length ≤ t.length) := by
  induction t using induction_replaceAll ho with
  | nil => simp [replaceAll]
  | lead t ih =>
    rw [replaceAll_lead ho, List.length_append, List.length_append]
    omega
  | cons s t hs ih =>
    rw [replaceAll_cons hs, List.length_cons, List.length_cons]
    omega

/-- A text is kept just if nothing is found in it, or every occurrence is replaced by itself. -/
theorem replaceAll_eq_self_iff (ho : old ≠ []) :
    replaceAll old new t = t ↔ ¬ old <:+: t ∨ new = old := by
  constructor
  · intro h
    induction t using induction_replaceAll ho with
    | nil => exact .inl fun hi => ho (List.infix_nil.1 hi)
    | lead t ih =>
      rw [replaceAll_lead ho] at h
      obtain ⟨hlonger, hshorter⟩ := length_replaceAll ho new t
      have hlength := congrArg List.length h
      rw [List.length_append, List.length_append] at hlength
      exact .inr (List.append_inj_left h (by omega))
    | cons s t hs ih =>
      rw [replaceAll_cons hs, List.cons.injEq] at h
      refine (ih h.2).imp_left fun ht hi => ?_
      exact (List.infix_cons_iff.1 hi).elim hs ht
  · rintro (h | rfl)
    · exact replaceAll_eq_self h new
    · exact replaceAll_self ho t

end ClipActions.Text
