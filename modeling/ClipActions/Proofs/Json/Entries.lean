import ClipActions.Proofs.Json.Symbols
import ClipActions.Proofs.Text.Encoding
import ClipActions.Value

/-!
Objects as tables of values and back: nothing is lost on the way, and what is put into the one is
put into the other.
-/
namespace ClipActions

/-- A text with bytes in UTF-8. -/
def Text.Encodable (t : Text) : Prop := ∀ s ∈ t, s.isLone = false

instance (t : Text) : Decidable t.Encodable :=
  inferInstanceAs (Decidable (∀ s ∈ t, s.isLone = false))

theorem Text.OfMarks.encodable {t : Text} (h : t.OfMarks) : t.Encodable := fun s hs => (h s hs).2.1

theorem Json.Fields.find?_cons (n name : Text) (v : Json) (rest : Json.Fields) :
    Json.Fields.find? ((n, v) :: rest) name = if name = n then some v else rest.find? name := by
  unfold Json.Fields.find?
  by_cases hn : name = n
  · simp [hn]
  · have hb : (name == n) = false := beq_false_of_ne hn
    simp [List.lookup_cons, hb, hn]

/-- Where every name stands once, each field is found under its own. -/
theorem Json.Fields.find?_of_mem {fields : Json.Fields} {n : Text} {v : Json}
    (hd : (fields.map Prod.fst).Nodup) (hm : (n, v) ∈ fields) : fields.find? n = some v := by
  induction fields with
  | nil => cases hm
  | cons f rest ih =>
    obtain ⟨m, w⟩ := f
    rw [List.map_cons, List.nodup_cons] at hd
    rw [find?_cons]
    rcases List.mem_cons.1 hm with h | h
    · cases h
      rw [if_pos rfl]
    · have hn : n ≠ m := by
        rintro rfl
        exact hd.1 (List.mem_map.2 ⟨_, h, rfl⟩)
      rw [if_neg hn]
      exact ih hd.2 h

namespace Value

variable {φ : Type}

mutual

@[simp] theorem toJson_ofJson (j : Json) : toJson (ofJson j : Value φ) = .ok j := by
  cases j with
  | null => rfl
  | bool b => rfl
  | int n => rfl
  | float x => rfl
  | str t => rfl
  | arr items =>
    rw [ofJson, toJson, toJsonItems_ofJsonItems items]
    rfl
  | obj fields =>
    rw [ofJson, toJson, toJsonEntries_ofJsonFields fields]
    rfl

theorem toJsonItems_ofJsonItems (items : List Json) :
    toJsonItems (ofJsonItems items : List (Value φ)) = .ok items := by
  cases items with
  | nil => rfl
  | cons j rest =>
    rw [ofJsonItems, toJsonItems, toJson_ofJson j, toJsonItems_ofJsonItems rest]
    rfl

theorem toJsonEntries_ofJsonFields (fields : List (Text × Json)) :
    toJsonEntries (ofJsonFields fields : List (Value φ × Value φ)) = .ok fields := by
  match fields with
  | [] => rfl
  | (name, j) :: rest =>
    rw [ofJsonFields, toJsonEntries, toJson_ofJson j, toJsonEntries_ofJsonFields rest]
    rfl

end

theorem table_ofJsonFields (fields : Json.Fields) :
    (table (ofJsonFields fields) : Value φ) = ofJson (.obj fields) := rfl

theorem putEntry_ofJsonFields (fields : Json.Fields) (name : Text) (j : Json) :
    putEntry (.str name) (ofJson j) (ofJsonFields fields : List (Value φ × Value φ)) =
      ofJsonFields (fields.put name j) := by
  induction fields with
  | nil => rfl
  | cons f rest ih =>
    obtain ⟨n, v⟩ := f
    rw [ofJsonFields, putEntry, Json.Fields.put]
    by_cases hn : n = name
    · subst hn
      simp [sameKey, ofJsonFields]
    · rw [if_neg hn, ofJsonFields, ih]
      simp [sameKey, hn]

theorem atName?_ofJsonFields (fields : Json.Fields) (name : Text) :
    atName? (ofJsonFields fields : List (Value φ × Value φ)) name =
      (fields.find? name).map ofJson := by
  induction fields with
  | nil => rfl
  | cons f rest ih =>
    obtain ⟨n, v⟩ := f
    rw [ofJsonFields, atName?, ih, Json.Fields.find?_cons]
    by_cases hn : n = name
    · simp [hn]
    · rw [if_neg hn, if_neg (Ne.symm hn)]

@[simp] theorem truthy_ofJson (j : Json) : (ofJson j : Value φ).truthy = j.truthy := by
  cases j with
  | arr items => cases items <;> rfl
  | obj fields =>
    match fields with
    | [] => rfl
    | (name, v) :: fields => rfl
  | _ => rfl

end Value

namespace Json

variable {fields : Fields} {name n : Text} {v : Json}

theorem Fields.find?_put (fields : Fields) (name n : Text) (v : Json) :
    (fields.put name v).find? n = if n = name then some v else fields.find? n := by
  induction fields with
  | nil => exact Fields.find?_cons name n v []
  | cons f rest ih =>
    obtain ⟨m, w⟩ := f
    rw [Fields.put]
    by_cases hm : m = name
    · subst hm
      rw [if_pos rfl, Fields.find?_cons, Fields.find?_cons]
      split <;> rfl
    · rw [if_neg hm, Fields.find?_cons, Fields.find?_cons, ih]
      by_cases hn : n = m
      · rw [if_pos hn, if_pos hn, if_neg (hn ▸ hm)]
      · rw [if_neg hn, if_neg hn]

theorem Fields.mem_of_find? (h : fields.find? n = some v) : (n, v) ∈ fields := by
  obtain ⟨before, after, rfl, -⟩ := List.lookup_eq_some_iff.1 h
  simp

theorem Fields.mem_put {x : Text × Json} (hx : x ∈ fields.put name v) :
    x ∈ fields ∨ x = (name, v) := by
  induction fields with
  | nil => exact .inr (List.mem_singleton.1 hx)
  | cons f rest ih =>
    obtain ⟨m, w⟩ := f
    rw [Fields.put] at hx
    split at hx
    · rename_i hm
      rcases List.mem_cons.1 hx with rfl | hx
      · exact .inr (by rw [hm])
      · exact .inl (List.mem_cons_of_mem _ hx)
    · rcases List.mem_cons.1 hx with rfl | hx
      · exact .inl List.mem_cons_self
      · exact (ih hx).imp_left (List.mem_cons_of_mem _)

theorem Fields.mem_update {news : Fields} {x : Text × Json} (hx : x ∈ Fields.update fields news) :
    x ∈ fields ∨ x ∈ news := by
  induction news generalizing fields with
  | nil => exact .inl hx
  | cons f news ih =>
    rcases ih (show x ∈ Fields.update (fields.put f.1 f.2) news from hx) with hx | hx
    · rcases Fields.mem_put hx with hx | rfl
      · exact .inl hx
      · exact .inr List.mem_cons_self
    · exact .inr (List.mem_cons_of_mem f hx)

theorem Fields.find?_erase (fields : Fields) (name n : Text) :
    (fields.erase name).find? n = if n = name then none else fields.find? n := by
  induction fields with
  | nil => exact (ite_self none).symm
  | cons f rest ih =>
    obtain ⟨m, w⟩ := f
    rw [Fields.erase] at ih ⊢
    rw [List.filter_cons, Fields.find?_cons]
    by_cases hm : m = name
    · rw [if_neg (by simpa using hm), ih]
      by_cases hn : n = name
      · rw [if_pos hn, if_pos hn]
      · rw [if_neg hn, if_neg hn, if_neg (fun h => hn (h.trans hm))]
    · rw [if_pos (by simpa using hm), Fields.find?_cons, ih]
      by_cases hn : n = m
      · rw [if_pos hn, if_pos hn, if_neg (fun h => hm (hn.symm.trans h))]
      · rw [if_neg hn, if_neg hn]

/-- What is put into fields is found before what was there. -/
theorem Fields.find?_update (fields news : Fields) (n : Text) :
    (Fields.update fields news).find? n =
      ((Fields.update [] news).find? n).or (fields.find? n) := by
  induction news generalizing fields with
  | nil => rfl
  | cons f news ih =>
    have hstep : ∀ gs : Fields, Fields.update gs (f :: news) = Fields.update (gs.put f.1 f.2) news :=
      fun _ => rfl
    rw [hstep, hstep, ih, ih (Fields.put [] f.1 f.2), Fields.find?_put, Fields.find?_put]
    split
    · rw [Option.or_assoc, Option.some_or]
    · rw [Option.or_assoc]
      rfl

theorem fieldStrings_put (fields : Fields) (name : Text) (v : Json) :
    ∀ t ∈ fieldStrings (fields.put name v), t = name ∨ t ∈ v.strings ∨ t ∈ fieldStrings fields := by
  induction fields with
  | nil =>
    intro t ht
    simpa [Fields.put, fieldStrings] using ht
  | cons f rest ih =>
    obtain ⟨m, w⟩ := f
    intro t ht
    rw [Fields.put] at ht
    split at ht
    · simp only [fieldStrings, List.mem_cons, List.mem_append] at ht ⊢
      rcases ht with h | h | h
      · exact .inr (.inr (.inl h))
      · exact .inr (.inl h)
      · exact .inr (.inr (.inr (.inr h)))
    · simp only [fieldStrings, List.mem_cons, List.mem_append] at ht ⊢
      rcases ht with h | h | h
      · exact .inr (.inr (.inl h))
      · exact .inr (.inr (.inr (.inl h)))
      · rcases ih t h with h | h | h
        · exact .inl h
        · exact .inr (.inl h)
        · exact .inr (.inr (.inr (.inr h)))

theorem fieldNesting_le_iff {fields : Fields} {n : Nat} :
    fieldNesting fields ≤ n ↔ ∀ f ∈ fields, f.2.nesting ≤ n := by
  induction fields with
  | nil => simp [fieldNesting]
  | cons f fields ih => rw [fieldNesting, Nat.max_le, ih, List.forall_mem_cons]

theorem nesting_of_mem {f : Text × Json} (h : f ∈ fields) : f.2.nesting ≤ fieldNesting fields :=
  fieldNesting_le_iff.1 (Nat.le_refl _) f h

theorem nesting_of_find? (h : fields.find? name = some v) : v.nesting ≤ fieldNesting fields :=
  nesting_of_mem (Fields.mem_of_find? h)

theorem fieldNesting_put {n : Nat} (fields : Fields) (name : Text) (v : Json)
    (hf : fieldNesting fields ≤ n) (hv : v.nesting ≤ n) : fieldNesting (fields.put name v) ≤ n := by
  refine fieldNesting_le_iff.2 fun f hm => ?_
  rcases Fields.mem_put hm with hm | rfl
  · exact fieldNesting_le_iff.1 hf f hm
  · exact hv

theorem le_fieldNesting_put {fields : Fields} {name : Text} (v : Json)
    (hn : fields.find? name = none) :
    fieldNesting fields ≤ fieldNesting (fields.put name v) := by
  induction fields with
  | nil => exact Nat.zero_le _
  | cons f fields ih =>
    obtain ⟨m, w⟩ := f
    rw [Fields.find?_cons] at hn
    split at hn
    · cases hn
    · rw [Fields.put, if_neg (Ne.symm ‹_›)]
      exact Nat.max_le.2 ⟨Nat.le_max_left _ _, Nat.le_trans (ih hn) (Nat.le_max_right _ _)⟩

theorem fieldNesting_update {news : Fields} {n : Nat} (fields : Fields)
    (hf : fieldNesting fields ≤ n)
    (hn : ∀ f ∈ news, f.2.nesting ≤ n) : fieldNesting (Fields.update fields news) ≤ n :=
  fieldNesting_le_iff.2 fun f hm =>
    (Fields.mem_update hm).elim (fieldNesting_le_iff.1 hf f) (hn f)

theorem truthy_str {t : Text} : (str t).truthy = true ↔ t ≠ [] := by
  cases t <;> simp [truthy]

/-- A text among the fields nests nothing deeper. -/
theorem fieldNesting_put_str (fields : Fields) (name t : Text) :
    fieldNesting (fields.put name (.str t)) ≤ fieldNesting fields :=
  fieldNesting_put fields name (.str t) (Nat.le_refl _) (Nat.zero_le _)

mutual

theorem nesting_ofJson {φ : Type} (j : Json) : (Value.ofJson j : Value φ).nesting = j.nesting := by
  cases j with
  | null | bool b | int n | float x | str t => rfl
  | arr items => exact congrArg (· + 1) (itemNesting_ofJson items)
  | obj fields => exact congrArg (· + 1) (entryNesting_ofJson fields)

theorem itemNesting_ofJson {φ : Type} (items : List Json) :
    Value.itemNesting (Value.ofJsonItems items : List (Value φ)) = itemNesting items := by
  cases items with
  | nil => rfl
  | cons j rest =>
    rw [Value.ofJsonItems, Value.itemNesting, itemNesting, nesting_ofJson j, itemNesting_ofJson rest]

theorem entryNesting_ofJson {φ : Type} (fields : Fields) :
    Value.entryNesting (Value.ofJsonFields fields : List (Value φ × Value φ)) =
      fieldNesting fields := by
  match fields with
  | [] => rfl
  | (n, j) :: rest =>
    have hname : (Value.str n : Value φ).nesting = 0 := rfl
    rw [Value.ofJsonFields, Value.entryNesting, fieldNesting, nesting_ofJson j,
      entryNesting_ofJson rest, hname, Nat.zero_max]

end

mutual

/-- What is reduced for the log is nested no deeper than it was. -/
theorem nesting_logSafe {φ : Type} (v : Value φ) : v.logSafe.nesting ≤ v.nesting := by
  cases v with
  | list items | tuple items | set items => exact Nat.succ_le_succ (itemNesting_logSafe items)
  | table entries =>
    exact Nat.succ_le_succ (fieldNesting_update [] (Nat.zero_le _) (fieldNesting_logSafe entries))
  | _ => exact Nat.zero_le _

theorem itemNesting_logSafe {φ : Type} (items : List (Value φ)) :
    itemNesting (Value.logSafeItems items) ≤ Value.itemNesting items := by
  cases items with
  | nil => exact Nat.le_refl _
  | cons v rest =>
    rw [Value.logSafeItems, itemNesting, Value.itemNesting]
    have hv := nesting_logSafe v
    have hrest := itemNesting_logSafe rest
    omega

theorem fieldNesting_logSafe {φ : Type} (entries : List (Value φ × Value φ)) :
    ∀ f ∈ Value.logSafeEntries entries, f.2.nesting ≤ Value.entryNesting entries := by
  match entries with
  | [] => nofun
  | (k, v) :: rest =>
    intro f hf
    rw [Value.entryNesting]
    rcases List.mem_cons.1 hf with rfl | hf
    · have hv := nesting_logSafe v
      dsimp only
      omega
    · have hrest := fieldNesting_logSafe rest f hf
      omega

end

/-- The bytes of a document of encodable texts hold no line feed. -/
theorem encode?_write {j : Json} (h : ∀ t ∈ j.strings, t.Encodable) :
    ∃ line, Utf8.encode? j.write = some line ∧ 10 ∉ line := by
  have hshown := shownFrom_write j
  have hlone : ∀ s ∈ j.write, s.isLone = false := by
    intro s hs
    cases hl : s.isLone with
    | false => rfl
    | true =>
      obtain ⟨t, ht, hm⟩ := (hshown s hs).2 hl
      rw [h t ht s hm] at hl
      cases hl
  obtain ⟨line, hline⟩ := Utf8.isSome_encode? hlone
  exact ⟨line, hline, Utf8.ten_notMem_encode? (fun s hs => (hshown s hs).1) hline⟩

end Json
end ClipActions
