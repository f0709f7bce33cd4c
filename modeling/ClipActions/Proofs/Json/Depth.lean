import ClipActions.Json.Access
import ClipActions.Json.Bytes
import ClipActions.Proofs.Json.Entries
import ClipActions.Proofs.Outcome

/-!
What has been read is not nested deeper than a reader goes, so it can be written again, and so can
what it holds within another container.
-/
namespace ClipActions.Json

variable {room fuel : Nat} {t left : Text} {stop : Stop} {j : Json} {fields : Fields}

theorem nesting_readWord? (h : readWord? t = some (j, left)) : j.nesting = 0 := by
  obtain ⟨⟨word, k⟩, hk, hd⟩ := List.exists_of_findSome?_eq_some h
  simp only [Option.map_eq_some_iff] at hd
  obtain ⟨l, -, he⟩ := hd
  cases he
  exact (by decide : ∀ f ∈ words, f.2.nesting = 0) _ hk

theorem nesting_readNumber (h : readNumber t = .ok (j, left)) : j.nesting = 0 := by
  unfold readNumber at h
  dsimp only at h
  split at h
  · cases h
  · split at h
    · split at h
      · cases h
      · cases h
        rfl
    · cases h
      rfl

/-- What is read with some fuel is not nested deeper than there is room. -/
structure Bounded (fuel : Nat) : Prop where
  value : ∀ room t j left, readValue room fuel t = .ok (j, left) → j.nesting ≤ room
  items : ∀ room t js left, readItems room fuel t = .ok (js, left) → itemNesting js ≤ room
  fields : ∀ room t fs left, readFields room fuel t = .ok (fs, left) → fieldNesting fs ≤ room

theorem Bounded.readValue (b : Bounded fuel) (h : readValue room (fuel + 1) t = .ok (j, left)) :
    j.nesting ≤ room := by
  rw [readValue.eq_def] at h
  dsimp only at h
  split at h
  · cases h
  split at h
  · obtain ⟨⟨s, l⟩, -, h⟩ := Except.bind_eq_ok.1 h
    cases h
    exact Nat.zero_le _
  split at h
  · split at h
    · cases h
    · cases h
      exact Nat.pos_of_ne_zero ‹_›
    · obtain ⟨⟨fs, l⟩, hfs, h⟩ := Except.bind_eq_ok.1 h
      cases h
      -- A name that is given twice has its last value, which is one of those that have been read.
      refine Nat.succ_le_succ (fieldNesting_update [] (Nat.zero_le _) fun f hf => ?_)
      exact Nat.le_trans (nesting_of_mem hf) (b.fields _ _ _ _ hfs)
  split at h
  · split at h
    · cases h
    · cases h
      exact Nat.pos_of_ne_zero ‹_›
    · obtain ⟨⟨js, l⟩, hjs, h⟩ := Except.bind_eq_ok.1 h
      cases h
      exact Nat.succ_le_succ (b.items _ _ _ _ hjs)
  split at h
  · rename_i found hw
    cases h
    rw [nesting_readWord? hw]
    exact Nat.zero_le _
  · rw [nesting_readNumber h]
    exact Nat.zero_le _

theorem Bounded.readItems (b : Bounded fuel) {js : List Json}
    (h : readItems room (fuel + 1) t = .ok (js, left)) : itemNesting js ≤ room := by
  rw [readItems.eq_def] at h
  dsimp only at h
  obtain ⟨⟨j, l⟩, hj, h⟩ := Except.bind_eq_ok.1 h
  have hfirst := b.value _ _ _ _ hj
  dsimp only at h
  split at h
  · cases h
    exact Nat.max_le.2 ⟨hfirst, Nat.zero_le _⟩
  · obtain ⟨⟨js, l⟩, hjs, h⟩ := Except.bind_eq_ok.1 h
    cases h
    exact Nat.max_le.2 ⟨hfirst, b.items _ _ _ _ hjs⟩
  · cases h

theorem Bounded.readFields (b : Bounded fuel)
    (h : readFields room (fuel + 1) t = .ok (fields, left)) : fieldNesting fields ≤ room := by
  rw [readFields.eq_def] at h
  dsimp only at h
  split at h
  · obtain ⟨⟨name, l⟩, -, h⟩ := Except.bind_eq_ok.1 h
    dsimp only at h
    split at h
    · obtain ⟨⟨j, l⟩, hj, h⟩ := Except.bind_eq_ok.1 h
      have hfirst := b.value _ _ _ _ hj
      dsimp only at h
      split at h
      · cases h
        exact Nat.max_le.2 ⟨hfirst, Nat.zero_le _⟩
      · obtain ⟨⟨fs, l⟩, hfs, h⟩ := Except.bind_eq_ok.1 h
        cases h
        exact Nat.max_le.2 ⟨hfirst, b.fields _ _ _ _ hfs⟩
      · cases h
    · cases h
  · cases h

/-- The three readers spend their fuel together. -/
theorem bounded (fuel : Nat) : Bounded fuel := by
  induction fuel with
  | zero =>
    constructor
    · intro room t j left h
      rw [Json.readValue.eq_def] at h
      cases h
    · intro room t js left h
      rw [Json.readItems.eq_def] at h
      cases h
    · intro room t fs left h
      rw [Json.readFields.eq_def] at h
      cases h
  | succ fuel ih =>
    exact ⟨fun _ _ _ _ => ih.readValue, fun _ _ _ _ => ih.readItems, fun _ _ _ _ => ih.readFields⟩

variable [Runtime]

theorem nesting_readStep (h : readStep t = .ok j) : j.nesting ≤ Runtime.jsonDepth := by
  unfold readStep at h
  dsimp only at h
  obtain ⟨⟨k, left⟩, hk, h⟩ := Except.bind_eq_ok.1 h
  dsimp only at h
  split at h
  · cases h
    exact (bounded _).value _ _ _ _ hk
  · cases h

/-- No document that bytes hold is nested too deeply. -/
theorem nesting_readBytes {bytes : Bytes} (h : readBytes bytes = .ok (some j)) :
    j.nesting ≤ Runtime.jsonDepth := by
  unfold readBytes at h
  split at h
  · cases h
  split at h
  · cases h
    exact nesting_readStep ‹_›
  split at h
  · cases h
  · cases h

/-- What a document holds can stand in another one of the same depth. -/
theorem nesting_get {name : Text} {v : Json} (hj : j.nesting ≤ Runtime.jsonDepth)
    (h : j.get name = .ok v) : v.nesting < Runtime.jsonDepth := by
  cases j with
  | obj fields =>
    cases h
    cases hf : Fields.find? fields name with
    | none => exact Runtime.jsonDepth_pos
    | some v => exact Nat.lt_of_le_of_lt (nesting_of_find? hf) hj
  | _ => cases h

end ClipActions.Json
