import ClipActions.Plugin

/-!
The two shapes of a description. A table and an object with the same fields describe the same action
but for one thing: null under the first spelling of a name hides the second spelling in a table, and
in an object it does not.
-/
namespace ClipActions.Plugin

variable {fields : List (Text × Candidate)} {n m : Text}

def asTable (fields : List (Text × Candidate)) : Candidate :=
  .table (fields.map fun (n, v) => (.str n, v))

def asObject (fields : List (Text × Candidate)) : Candidate := .object fields

/-- What is given under a name; null if nothing is. -/
def given (fields : List (Text × Candidate)) (n : Text) : Candidate := (fields.lookup n).getD .null

theorem held?_asTable (fields : List (Text × Candidate)) (n : Text) :
    held? (asTable fields) n = fields.lookup n := by
  show Value.atName? _ n = _
  induction fields with
  | nil => rfl
  | cons f rest ih =>
    obtain ⟨t, v⟩ := f
    rw [List.map_cons, Value.atName?, ih, List.lookup_cons]
    by_cases ht : t = n
    · simp [ht]
    · have hb : (n == t) = false := beq_false_of_ne (Ne.symm ht)
      rw [if_neg ht, hb]

theorem held?_asObject (fields : List (Text × Candidate)) (n : Text) :
    held? (asObject fields) n = if (given fields n).isNull then none else some (given fields n) :=
  rfl

theorem eq_null_of_isNull {v : Candidate} (h : v.isNull = true) : v = .null := by
  cases v with
  | null => rfl
  | _ => cases h

theorem field_asTable_one (fields : List (Text × Candidate)) (n : Text) :
    field (asTable fields) [n] = given fields n := by
  rw [field, List.findSome?_cons, held?_asTable, given]
  cases fields.lookup n <;> rfl

theorem field_asObject_one (fields : List (Text × Candidate)) (n : Text) :
    field (asObject fields) [n] = given fields n := by
  rw [field, List.findSome?_cons, held?_asObject]
  split
  · rename_i hv
    split at hv
    · cases hv
    · cases hv
      rfl
  · rename_i hv
    split at hv
    · exact (eq_null_of_isNull ‹_›).symm
    · cases hv

/-- In a table the first spelling that stands there counts. -/
theorem field_asTable_two (fields : List (Text × Candidate)) (n m : Text) :
    field (asTable fields) [n, m] = (fields.lookup n).getD (given fields m) := by
  rw [field, List.findSome?_cons, held?_asTable]
  cases fields.lookup n with
  | some v => rfl
  | none => exact field_asTable_one fields m

/-- In an object the first spelling counts that is not null. -/
theorem field_asObject_two (fields : List (Text × Candidate)) (n m : Text) :
    field (asObject fields) [n, m] =
      if (given fields n).isNull then given fields m else given fields n := by
  rw [field, List.findSome?_cons, held?_asObject]
  by_cases hv : (given fields n).isNull
  · rw [if_pos hv, if_pos hv]
    exact field_asObject_one fields m
  · rw [if_neg hv, if_neg hv]
    rfl

/-- Both shapes hold the same under two spellings unless null stands under the first. -/
theorem field_two (h : fields.lookup n ≠ some .null) (m : Text) :
    field (asTable fields) [n, m] = field (asObject fields) [n, m] := by
  rw [field_asTable_two, field_asObject_two]
  cases hn : fields.lookup n with
  | none =>
    have hgiven : given fields n = .null := by rw [given, hn]; rfl
    rw [hgiven]
    rfl
  | some v =>
    have hgiven : given fields n = v := by rw [given, hn]; rfl
    have hv : ¬ v.isNull = true := fun hv => h (hn.trans (congrArg some (eq_null_of_isNull hv)))
    rw [hgiven, if_neg hv]
    rfl

theorem field_two_null (h : fields.lookup n = some .null) (m : Text) :
    field (asTable fields) [n, m] = .null ∧ field (asObject fields) [n, m] = given fields m := by
  have hgiven : given fields n = .null := by rw [given, h]; rfl
  rw [field_asTable_two, field_asObject_two, h, hgiven]
  exact ⟨rfl, rfl⟩

theorem given_eq_str {t : Text} : given fields n = .str t ↔ fields.lookup n = some (.str t) := by
  unfold given
  cases fields.lookup n <;> simp

theorem present?_eq_some {v : Candidate} {t : Text} : present? v = some t ↔ v = .str t ∧ t ≠ [] := by
  unfold present?
  split
  · rename_i s
    cases s <;> simp
    rintro rfl
    exact List.cons_ne_nil _ _
  · rename_i hv
    simp only [reduceCtorEq, false_iff]
    exact fun h => hv t h.1

theorem text?_eq_some {v : Candidate} {t : Text} : text? v = some t ↔ v = .str t := by
  unfold text?
  split
  · simp
  · rename_i hv
    simp only [reduceCtorEq, false_iff]
    exact hv t

/-- Null under the first spelling hides a text under the second. -/
def Hides (fields : List (Text × Candidate)) (n m t : Text) : Prop :=
  fields.lookup n = some .null ∧ fields.lookup m = some (.str t)

theorem hides_iff (h : fields.lookup n = some .null) {t : Text} :
    Hides fields n m t ↔ given fields m = .str t := by
  rw [given_eq_str]
  exact and_iff_right h

/-- The titles are the same unless one is hidden that says something else. -/
theorem title_eq_iff (fields : List (Text × Candidate)) (n m id : Text) :
    (present? (field (asTable fields) [n, m])).getD id =
        (present? (field (asObject fields) [n, m])).getD id ↔
      ¬ ∃ t, Hides fields n m t ∧ t ≠ [] ∧ t ≠ id := by
  by_cases hn : fields.lookup n = some .null
  · obtain ⟨htable, hobject⟩ := field_two_null hn m
    rw [htable, hobject]
    show id = _ ↔ _
    simp only [hides_iff hn]
    cases hp : present? (given fields m) with
    | none =>
      refine iff_of_true rfl ?_
      rintro ⟨t, ht, hne, -⟩
      cases hp.symm.trans (present?_eq_some.2 ⟨ht, hne⟩)
    | some t =>
      obtain ⟨ht, hne⟩ := present?_eq_some.1 hp
      rw [ht]
      constructor
      · rintro hid ⟨s, hs, -, hsid⟩
        cases hs
        exact hsid hid.symm
      · intro hnone
        by_cases hid : t = id
        · exact hid.symm
        · exact absurd ⟨t, rfl, hne, hid⟩ hnone
  · rw [field_two hn]
    exact iff_of_true rfl fun ⟨t, ht, _⟩ => hn ht.1

/-- The messages are the same unless one is hidden. -/
theorem progress_eq_iff (fields : List (Text × Candidate)) (n m : Text) :
    text? (field (asTable fields) [n, m]) = text? (field (asObject fields) [n, m]) ↔
      ¬ ∃ t, Hides fields n m t := by
  by_cases hn : fields.lookup n = some .null
  · obtain ⟨htable, hobject⟩ := field_two_null hn m
    rw [htable, hobject]
    show none = _ ↔ _
    simp only [hides_iff hn, ← text?_eq_some]
    cases text? (given fields m) <;> simp
  · rw [field_two hn]
    exact iff_of_true rfl fun ⟨t, ht⟩ => hn ht.1

/-- What two descriptions of the same fields agree in. The titles are the same unless one is hidden
that says something else, and the messages unless one is hidden. -/
structure Alike (fields : List (Text × Candidate)) (a b : Action) : Prop where
  id : a.id = b.id
  aliases : a.aliases = b.aliases
  description : a.description = b.description
  run : a.run = b.run
  title : a.title = b.title ↔
    ¬ ∃ t, Hides fields "output_title" "outputTitle" t ∧ t ≠ [] ∧ t ≠ a.id
  progress : a.progress = b.progress ↔
    ¬ ∃ t, Hides fields "progress_message" "progressMessage" t

/-- Both shapes are accepted alike, and what they describe differs in nothing but a hidden title or
message. -/
theorem shapes_alike (fields : List (Text × Candidate)) :
    Option.Rel (Alike fields) (action? (asTable fields)) (action? (asObject fields)) := by
  unfold action?
  simp only [field_asTable_one, field_asObject_one]
  cases present? (given fields "id") with
  | none => exact .none
  | some id =>
    cases given fields "run" with
    | function b =>
      exact .some ⟨rfl, rfl, rfl, rfl, title_eq_iff fields _ _ id, progress_eq_iff fields _ _⟩
    | _ => exact .none

/-- A table whose title is null has no other, and an object has the other one. -/
theorem shapes_hidden_title :
    let fields : List (Text × Candidate) := [("id", .str "p"), ("run", .function fun _ => .done .null),
      ("output_title", .null), ("outputTitle", .str "Nice")]
    (action? (asTable fields)).map (·.title) = some "p" ∧
      (action? (asObject fields)).map (·.title) = some "Nice" :=
  ⟨rfl, rfl⟩

end ClipActions.Plugin
