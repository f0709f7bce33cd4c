import ClipActions.Text.Basic

/-! The parts of a text before, between and after a code point that stands in it. -/
namespace ClipActions.Text

variable {sep : Symbol} {t before after : Text}

theorem all_ne_of_not_mem (h : sep ∉ t) : ∀ s ∈ t, decide (s ≠ sep) = true := by
  intro s hs
  rw [decide_eq_true_eq]
  rintro rfl
  exact h hs

theorem cut_append (h : sep ∉ before) (after : Text) :
    cut sep (before ++ sep :: after) = (before, some after) := by
  induction before with
  | nil => simp [cut]
  | cons s before ih =>
    rw [List.mem_cons, not_or] at h
    rw [List.cons_append, cut, if_neg (Ne.symm h.1), ih h.2]

theorem cut_of_not_mem (h : sep ∉ t) : t.cut sep = (t, none) := by
  induction t with
  | nil => rfl
  | cons s t ih =>
    rw [List.mem_cons, not_or] at h
    rw [cut, if_neg (Ne.symm h.1), ih h.2]

/-- A text is cut at the first occurrence, if there is one. -/
theorem cut_cases (sep : Symbol) (t : Text) :
    (sep ∉ t ∧ t.cut sep = (t, none)) ∨
      ∃ before after, t = before ++ sep :: after ∧ sep ∉ before ∧
        t.cut sep = (before, some after) := by
  by_cases h : sep ∈ t
  · obtain ⟨before, after, rfl, hb⟩ := List.eq_append_cons_of_mem h
    exact .inr ⟨before, after, rfl, hb, cut_append hb after⟩
  · exact .inl ⟨h, cut_of_not_mem h⟩

private theorem takeWhile_reverse (h : sep ∉ after) (before : Text) :
    (after.reverse ++ before).takeWhile (· ≠ sep) = after.reverse ++ before.takeWhile (· ≠ sep) :=
  List.takeWhile_append_of_pos (all_ne_of_not_mem fun hs => h (List.mem_reverse.1 hs))

theorem afterLast_append (before : Text) (h : sep ∉ after) :
    afterLast sep (before ++ sep :: after) = after := by
  have hrev : (before ++ sep :: after).reverse = after.reverse ++ sep :: before.reverse := by simp
  rw [afterLast, hrev, takeWhile_reverse h]
  simp

theorem afterLast_of_not_mem (h : sep ∉ t) : t.afterLast sep = t := by
  have hall := takeWhile_reverse h []
  rw [List.append_nil, List.takeWhile_nil, List.append_nil] at hall
  rw [afterLast, hall, List.reverse_reverse]

/-- The last part of a text begins after the last occurrence, if there is one. -/
theorem afterLast_cases (sep : Symbol) (t : Text) :
    (sep ∉ t ∧ t.afterLast sep = t) ∨
      ∃ before after, t = before ++ sep :: after ∧ sep ∉ after ∧ t.afterLast sep = after := by
  by_cases h : sep ∈ t
  · obtain ⟨after, before, hr, ha⟩ := List.eq_append_cons_of_mem (List.mem_reverse.2 h)
    obtain rfl : t = before.reverse ++ sep :: after.reverse := by
      rw [← List.reverse_reverse t, hr]
      simp
    have ha : sep ∉ after.reverse := fun hs => ha (List.mem_reverse.1 hs)
    exact .inr ⟨before.reverse, after.reverse, rfl, ha, afterLast_append before.reverse ha⟩
  · exact .inl ⟨h, afterLast_of_not_mem h⟩

theorem splitOn_append (h : sep ∉ before) (after : Text) :
    splitOn sep (before ++ sep :: after) = before :: splitOn sep after := by
  induction before with
  | nil => simp [splitOn]
  | cons s before ih =>
    rw [List.mem_cons, not_or] at h
    rw [List.cons_append, splitOn, if_neg (Ne.symm h.1), ih h.2]

theorem splitOn_of_not_mem (h : sep ∉ t) : splitOn sep t = [t] := by
  induction t with
  | nil => rfl
  | cons s t ih =>
    rw [List.mem_cons, not_or] at h
    rw [splitOn, if_neg (Ne.symm h.1), ih h.2]

end ClipActions.Text
