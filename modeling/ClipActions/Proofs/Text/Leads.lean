import ClipActions.Text.Basic

/-! What a text begins with, and what is left of it when it is cut at its end. -/
namespace ClipActions.Text

variable {lead t left : Text}

theorem dropLead?_append (lead t : Text) : dropLead? lead (lead ++ t) = some t := by
  induction lead with
  | nil => rfl
  | cons s lead ih => rw [List.cons_append, dropLead?, if_pos rfl, ih]

theorem append_of_dropLead? (h : dropLead? lead t = some left) : t = lead ++ left := by
  fun_induction dropLead? lead t with
  | case1 t => simpa using h
  | case2 => cases h
  | case3 a lead t ih => rw [List.cons_append, ih h]
  | case4 => cases h

theorem startsWith_iff : startsWith lead t = true ↔ lead <+: t := by
  unfold startsWith
  constructor
  · intro h
    obtain ⟨left, hl⟩ := Option.isSome_iff_exists.1 h
    exact ⟨left, (append_of_dropLead? hl).symm⟩
  · rintro ⟨left, rfl⟩
    rw [dropLead?_append]
    rfl

theorem occursIn_iff {needle : Text} : occursIn needle t = true ↔ needle <:+: t := by
  induction t with
  | nil => simp [occursIn, List.infix_nil]
  | cons c rest ih => rw [occursIn, Bool.or_eq_true, startsWith_iff, ih, List.infix_cons_iff]

theorem prefix_dropTail (p : Symbol → Bool) (t : Text) : dropTail p t <+: t := by
  have := List.dropWhile_suffix (l := t.reverse) p
  rwa [← List.reverse_prefix, List.reverse_reverse] at this

/-- A first symbol that would not be dropped stays. -/
theorem dropTail_cons {p : Symbol → Bool} {s : Symbol} (hs : p s = false) (t : Text) :
    ∃ u, dropTail p (s :: t) = s :: u ∧ u <+: t := by
  refine ⟨_, ?_, prefix_dropTail p t⟩
  unfold dropTail
  rw [List.reverse_cons, List.dropWhile_append]
  cases t.reverse.dropWhile p with
  | nil => simp [hs]
  | cons r u => simp

end ClipActions.Text
