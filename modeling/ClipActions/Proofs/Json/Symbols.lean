import ClipActions.Json.Writer
import ClipActions.Proofs.Text.Numerals

/-!
The symbols that a document is written with. None of them ends a line, and a lone surrogate is among
them only if a text of the document holds it.
-/
namespace ClipActions.Json

mutual

/-- The texts of a document: its strings and the names of its fields. -/
def strings : Json → List Text
  | str t => [t]
  | arr items => itemStrings items
  | obj fields => fieldStrings fields
  | _ => []

def itemStrings : List Json → List Text
  | [] => []
  | j :: rest => strings j ++ itemStrings rest

def fieldStrings : List (Text × Json) → List Text
  | [] => []
  | (name, j) :: rest => name :: (strings j ++ fieldStrings rest)

end

/-- The symbols of a text stand in no line end, and the lone surrogates among them come from texts
of a list. -/
def ShownFrom (ts : List Text) (t : Text) : Prop :=
  ∀ s ∈ t, 0x20 ≤ s.code ∧ (s.isLone = true → ∃ u ∈ ts, s ∈ u)

variable {ts us : List Text} {t u : Text}

theorem ShownFrom.append (ht : ShownFrom ts t) (hu : ShownFrom ts u) : ShownFrom ts (t ++ u) := by
  intro s hs
  rcases List.mem_append.1 hs with h | h
  · exact ht s h
  · exact hu s h

theorem ShownFrom.mono (ht : ShownFrom ts t) (h : ts ⊆ us) : ShownFrom us t := by
  intro s hs
  obtain ⟨hc, hl⟩ := ht s hs
  refine ⟨hc, fun hs => ?_⟩
  obtain ⟨u, hu, hm⟩ := hl hs
  exact ⟨u, h hu, hm⟩

theorem ShownFrom.of_marks (h : t.OfMarks) : ShownFrom ts t := by
  intro s hs
  obtain ⟨hc, hl, -⟩ := h s hs
  exact ⟨hc, fun h => by simp [hl] at h⟩

private theorem shownFrom_quote : ShownFrom ts [.char '"'] := by
  intro s hs
  obtain rfl := List.mem_singleton.1 hs
  exact ⟨by decide, by simp [Symbol.isLone]⟩

/-- What stands for a symbol in a string is that symbol or is made of plain ones. -/
theorem mem_escapeSymbol {s r : Symbol} (h : r ∈ escapeSymbol s) :
    0x20 ≤ r.code ∧ (r.isLone = true → r = s) := by
  have plain : ∀ u : Text, (∀ s ∈ u, 0x20 ≤ s.code ∧ s.isLone = false) → r ∈ u →
      0x20 ≤ r.code ∧ (r.isLone = true → r = s) := by
    intro u hu hr
    obtain ⟨hc, hl⟩ := hu r hr
    exact ⟨hc, fun h => by simp [hl] at h⟩
  unfold escapeSymbol at h
  split at h
  · exact plain _ (by decide) h
  split at h
  · exact plain _ (by decide) h
  split at h
  · exact plain _ (by decide) h
  split at h
  · exact plain _ (by decide) h
  split at h
  · exact plain _ (by decide) h
  split at h
  · exact plain _ (by decide) h
  split at h
  · exact plain _ (by decide) h
  split at h
  · rename_i hlow
    have all : ∀ n < 0x20, ∀ s ∈ ("\\u" : Text) ++ (Radix.write 16 n).padZeros 4,
        0x20 ≤ s.code ∧ s.isLone = false := by decide
    exact plain _ (all s.code hlow) h
  · rename_i hlow
    obtain rfl := List.mem_singleton.1 h
    exact ⟨by omega, fun _ => rfl⟩

theorem shownFrom_writeString (t : Text) : ShownFrom [t] (writeString t) := by
  refine .append ?_ shownFrom_quote
  refine (show ShownFrom [t] [.char '"'] from shownFrom_quote).append ?_
  intro r hr
  obtain ⟨s, hs, hr⟩ := List.mem_flatMap.1 hr
  obtain ⟨hc, hl⟩ := mem_escapeSymbol hr
  exact ⟨hc, fun h => ⟨t, by simp, hl h ▸ hs⟩⟩

theorem ofNumerals_writeFloat (x : Double) : (writeFloat x).OfNumerals := by
  unfold writeFloat
  split
  · decide
  · decide
  · decide
  · exact x.ofNumerals_text

theorem writeFloat_ne_nil (x : Double) : writeFloat x ≠ [] := by
  unfold writeFloat
  split
  · decide
  · decide
  · decide
  · exact x.text_ne_nil

private theorem itemStrings_subset (j : Json) (rest : List Json) :
    itemStrings rest ⊆ itemStrings (j :: rest) := List.subset_append_right _ _

private theorem fieldStrings_subset (name : Text) (j : Json) (rest : Fields) :
    fieldStrings rest ⊆ fieldStrings ((name, j) :: rest) :=
  List.Subset.trans (List.subset_append_right _ _) (List.subset_cons_self _ _)

mutual

theorem shownFrom_write (j : Json) : ShownFrom j.strings (j.writeWith .compact) := by
  cases j with
  | null => exact .of_marks (by decide)
  | bool b => cases b <;> exact .of_marks (by decide)
  | int n => exact .of_marks (Text.ofNumerals_ofInt n).marks
  | float x => exact .of_marks (ofNumerals_writeFloat x).marks
  | str t => exact shownFrom_writeString t
  | arr items =>
    exact (show ShownFrom _ "[" from .of_marks (by decide)).append (shownFrom_items items)
  | obj fields =>
    exact (show ShownFrom _ "\x7b" from .of_marks (by decide)).append (shownFrom_fields fields)

private theorem shownFrom_items (js : List Json) :
    ShownFrom (itemStrings js) (writeItems .compact js) := by
  cases js with
  | nil => exact .of_marks (by decide)
  | cons j rest =>
    have hj : ShownFrom (itemStrings (j :: rest)) (j.writeWith .compact) :=
      (shownFrom_write j).mono (by simp [itemStrings])
    cases rest with
    | nil => exact hj.append (.of_marks (by decide))
    | cons k rest =>
      exact (hj.append (.of_marks (by decide))).append
        ((shownFrom_items (k :: rest)).mono (itemStrings_subset j _))

private theorem shownFrom_fields (fs : List (Text × Json)) :
    ShownFrom (fieldStrings fs) (writeFields .compact fs) := by
  match fs with
  | [] => exact .of_marks (by decide)
  | (name, j) :: rest =>
    have hname : ShownFrom (fieldStrings ((name, j) :: rest)) (writeString name) :=
      (shownFrom_writeString name).mono (by simp [fieldStrings])
    have hj : ShownFrom (fieldStrings ((name, j) :: rest)) (j.writeWith .compact) :=
      (shownFrom_write j).mono (by
        rw [fieldStrings]
        exact List.Subset.trans (List.subset_append_left _ _) (List.subset_cons_self _ _))
    have hfield := (hname.append (u := Layout.compact.name) (.of_marks (by decide))).append hj
    match rest with
    | [] => exact hfield.append (.of_marks (by decide))
    | f :: rest =>
      exact (hfield.append (.of_marks (by decide))).append
        ((shownFrom_fields (f :: rest)).mono (fieldStrings_subset name j _))

end

end ClipActions.Json
