import ClipActions.Proofs.Json.Entries
import ClipActions.Proofs.Json.Numbers
import Mathlib.Data.List.Basic

/-!
Documents are read back from their text, as long as no number and no nesting is beyond what can be
read: one without floating-point numbers as it is, and every other one with the numbers that these are
read back as.
-/
namespace ClipActions.Json

variable {t u left rest more name : Text} {s : Symbol} {room fuel : Nat} {j v : Json}
  {js : List Json} {fields : Fields}

mutual

/-- Whether a document has no floating-point numbers, only whole numbers that can be read, and no
two fields of one name in an object. -/
def isPlain : Json → Bool
  | int n => (Text.ofNat n.natAbs).length ≤ maxDigits
  | float _ => false
  | arr items => arePlain items
  | obj fields => (fields.map Prod.fst).Nodup && havePlain fields
  | _ => true

def arePlain : List Json → Bool
  | [] => true
  | j :: rest => isPlain j && arePlain rest

def havePlain : List (Text × Json) → Bool
  | [] => true
  | (_, j) :: rest => isPlain j && havePlain rest

end

mutual

/-- Whether no whole number of a document has more digits than can be read. -/
def fits : Json → Bool
  | int n => (Text.ofNat n.natAbs).length ≤ maxDigits
  | arr items => allFit items
  | obj fields => valuesFit fields
  | _ => true

def allFit : List Json → Bool
  | [] => true
  | j :: rest => fits j && allFit rest

def valuesFit : List (Text × Json) → Bool
  | [] => true
  | (_, j) :: rest => fits j && valuesFit rest

end

mutual

/-- A document as it is read back from its text: with the floating-point numbers that the texts of its
own ones stand for, and one field for each name. -/
def settled : Json → Json
  | float x => .float (reread x)
  | arr items => .arr (settledItems items)
  | obj fields => .obj (Fields.update [] (settledFields fields))
  | j => j

def settledItems : List Json → List Json
  | [] => []
  | j :: rest => settled j :: settledItems rest

def settledFields : List (Text × Json) → List (Text × Json)
  | [] => []
  | (name, j) :: rest => (name, settled j) :: settledFields rest

end

/-! Values. -/

theorem Fields.put_of_notMem {fields : Fields} (h : name ∉ fields.map Prod.fst) (v : Json) :
    fields.put name v = fields ++ [(name, v)] := by
  induction fields with
  | nil => rfl
  | cons f fields ih =>
    rw [List.map_cons, List.mem_cons, not_or] at h
    rw [Fields.put, if_neg (Ne.symm h.1), ih h.2, List.cons_append]

theorem Fields.names_put_of_mem {fields : Fields} (h : name ∈ fields.map Prod.fst) (v : Json) :
    (fields.put name v).map Prod.fst = fields.map Prod.fst := by
  induction fields with
  | nil => cases h
  | cons f fields ih =>
    obtain ⟨m, w⟩ := f
    rw [Fields.put]
    by_cases hm : m = name
    · rw [if_pos hm]
      rfl
    · rw [List.map_cons, List.mem_cons] at h
      have hname : name ∈ fields.map Prod.fst := h.resolve_left (Ne.symm hm)
      rw [if_neg hm, List.map_cons, List.map_cons, ih hname]

theorem Fields.nodup_put {fields : Fields} (h : (fields.map Prod.fst).Nodup) (name : Text)
    (v : Json) : ((fields.put name v).map Prod.fst).Nodup := by
  by_cases hm : name ∈ fields.map Prod.fst
  · rw [names_put_of_mem hm]
    exact h
  · rw [put_of_notMem hm, List.map_append, List.nodup_append]
    refine ⟨h, List.nodup_cons.2 ⟨nofun, List.nodup_nil⟩, fun n hn m hm' hnm => hm ?_⟩
    obtain rfl : m = name := List.mem_singleton.1 hm'
    exact hnm ▸ hn

theorem Fields.nodup_update {fields : Fields} (h : (fields.map Prod.fst).Nodup) (news : Fields) :
    ((Fields.update fields news).map Prod.fst).Nodup := by
  induction news generalizing fields with
  | nil => exact h
  | cons f news ih => exact ih (nodup_put h f.1 f.2)

theorem havePlain_iff {fields : Fields} :
    havePlain fields = true ↔ ∀ f ∈ fields, f.2.isPlain = true := by
  induction fields with
  | nil => simp [havePlain]
  | cons f fields ih => rw [havePlain, Bool.and_eq_true, ih, List.forall_mem_cons]

theorem havePlain_put {fields : Fields} (hf : havePlain fields = true) (hv : v.isPlain = true) :
    havePlain (fields.put name v) = true := by
  refine havePlain_iff.2 fun f hm => ?_
  rcases Fields.mem_put hm with hm | rfl
  · exact havePlain_iff.1 hf f hm
  · exact hv

theorem isPlain_of_find? {fields : Fields} (hf : havePlain fields = true)
    (hv : fields.find? name = some v) : v.isPlain = true :=
  havePlain_iff.1 hf _ (Fields.mem_of_find? hv)

theorem isPlain_obj {fields : Fields} : (obj fields).isPlain = true ↔
    (fields.map Prod.fst).Nodup ∧ havePlain fields = true := by
  rw [isPlain, Bool.and_eq_true, decide_eq_true_eq]

/-- A plain object stays plain when something plain is put into it. -/
theorem isPlain_put {fields : Fields} (hf : (obj fields).isPlain = true) (hv : v.isPlain = true) :
    (obj (fields.put name v)).isPlain = true := by
  obtain ⟨hd, hp⟩ := isPlain_obj.1 hf
  exact isPlain_obj.2 ⟨Fields.nodup_put hd name v, havePlain_put hp hv⟩

/-- Fields of distinct names are put one behind the other. -/
theorem Fields.update_of_nodup {before fields : Fields}
    (h : ((before ++ fields).map Prod.fst).Nodup) :
    Fields.update before fields = before ++ fields := by
  induction fields generalizing before with
  | nil => rw [List.append_nil]; rfl
  | cons f fields ih =>
    obtain ⟨name, v⟩ := f
    have hn : name ∉ before.map Prod.fst := by
      rw [List.map_append, List.map_cons, List.nodup_append] at h
      exact fun hm => h.2.2 name hm name List.mem_cons_self rfl
    rw [List.append_cons] at h ⊢
    rw [← ih h, ← Fields.put_of_notMem hn v]
    rfl

mutual

/-- What is plain can be read back, and is settled as it is. -/
theorem settled_of_isPlain (j : Json) (hp : j.isPlain = true) :
    j.fits = true ∧ j.settled = j := by
  cases j with
  | int n => exact ⟨hp, rfl⟩
  | float x => cases hp
  | null | bool b | str t => exact ⟨rfl, rfl⟩
  | arr items =>
    obtain ⟨hfits, hsettled⟩ := settledItems_of_arePlain items hp
    exact ⟨hfits, congrArg arr hsettled⟩
  | obj fields =>
    obtain ⟨hd, hp⟩ := isPlain_obj.1 hp
    obtain ⟨hfits, hsettled⟩ := settledFields_of_havePlain fields hp
    have hupdate : Fields.update [] fields = fields := Fields.update_of_nodup hd
    exact ⟨hfits, by rw [settled, hsettled, hupdate]⟩

theorem settledItems_of_arePlain (js : List Json) (hp : arePlain js = true) :
    allFit js = true ∧ settledItems js = js := by
  cases js with
  | nil => exact ⟨rfl, rfl⟩
  | cons j js =>
    rw [arePlain, Bool.and_eq_true] at hp
    obtain ⟨hfit, hsettled⟩ := settled_of_isPlain j hp.1
    obtain ⟨hfits, hall⟩ := settledItems_of_arePlain js hp.2
    rw [allFit, hfit, hfits, settledItems, hsettled, hall]
    exact ⟨rfl, rfl⟩

theorem settledFields_of_havePlain (fields : Fields) (hp : havePlain fields = true) :
    valuesFit fields = true ∧ settledFields fields = fields := by
  match fields with
  | [] => exact ⟨rfl, rfl⟩
  | (name, j) :: fields =>
    rw [havePlain, Bool.and_eq_true] at hp
    obtain ⟨hfit, hsettled⟩ := settled_of_isPlain j hp.1
    obtain ⟨hfits, hall⟩ := settledFields_of_havePlain fields hp.2
    rw [valuesFit, hfit, hfits, settledFields, hsettled, hall]
    exact ⟨rfl, rfl⟩

end

theorem valuesFit_iff {fields : Fields} :
    valuesFit fields = true ↔ ∀ f ∈ fields, f.2.fits = true := by
  induction fields with
  | nil => simp [valuesFit]
  | cons f fields ih => rw [valuesFit, Bool.and_eq_true, ih, List.forall_mem_cons]

theorem settledFields_eq_map (fields : Fields) :
    settledFields fields = fields.map fun f => (f.1, f.2.settled) := by
  induction fields with
  | nil => rfl
  | cons f fields ih => rw [settledFields, ih, List.map_cons]

theorem settledFields_put (fields : Fields) (name : Text) (v : Json) :
    settledFields (fields.put name v) = Fields.put (settledFields fields) name v.settled := by
  induction fields with
  | nil => rfl
  | cons f fields ih =>
    obtain ⟨m, w⟩ := f
    rw [Fields.put, settledFields, Fields.put]
    split
    · rfl
    · rw [settledFields, ih]

theorem settledFields_update (fields news : Fields) : settledFields (Fields.update fields news) =
    Fields.update (settledFields fields) (settledFields news) := by
  induction news generalizing fields with
  | nil => rfl
  | cons f news ih =>
    have hput := settledFields_put fields f.1 f.2
    exact (ih (fields.put f.1 f.2)).trans (by rw [hput]; rfl)

theorem readItems_last (hx : readValue room fuel t = .ok (j, .char ']' :: rest)) :
    readItems room (fuel + 1) t = .ok ([j], rest) := by
  rw [readItems.eq_def]
  simp only [hx]
  rfl

theorem readItems_next (hx : readValue room fuel t = .ok (j, .char ',' :: more))
    (hm : readItems room fuel (skipSpace more) = .ok (js, rest)) :
    readItems room (fuel + 1) t = .ok (j :: js, rest) := by
  have hcomma : skipSpace (.char ',' :: more) = .char ',' :: more := skipSpace_cons (by decide)
  rw [readItems.eq_def]
  simp only [hx, bind, Except.bind, hcomma, hm]
  rfl

theorem readFields_last {value : Text} (hname : readString t = .ok (name, .char ':' :: value))
    (hx : readValue room fuel (skipSpace value) = .ok (j, .char '\x7d' :: rest)) :
    readFields room (fuel + 1) (.char '"' :: t) = .ok ([(name, j)], rest) := by
  have hcolon : skipSpace (.char ':' :: value) = .char ':' :: value := skipSpace_cons (by decide)
  rw [readFields.eq_def]
  simp only [hname, bind, Except.bind, hcolon, hx]
  rfl

theorem readFields_next {value : Text} (hname : readString t = .ok (name, .char ':' :: value))
    (hx : readValue room fuel (skipSpace value) = .ok (j, .char ',' :: more))
    (hm : readFields room fuel (skipSpace more) = .ok (fields, rest)) :
    readFields room (fuel + 1) (.char '"' :: t) = .ok ((name, j) :: fields, rest) := by
  have hcolon : skipSpace (.char ':' :: value) = .char ':' :: value := skipSpace_cons (by decide)
  have hcomma : skipSpace (.char ',' :: more) = .char ',' :: more := skipSpace_cons (by decide)
  rw [readFields.eq_def]
  simp only [hname, bind, Except.bind, hcolon, hx, hcomma, hm]
  rfl

theorem length_write_pos (j : Json) : 0 < (j.writeWith .compact).length := by
  obtain ⟨s, t, h, -⟩ := j.write_eq_cons
  rw [h]
  exact Nat.succ_pos _

mutual

/-- A document is read back, with fuel for twice its length. -/
theorem readValue_write (j : Json) {room : Nat} (fuel : Nat) {rest : Text} (hp : j.fits = true)
    (hc : Closed rest) (hn : j.nesting ≤ room) (hf : 2 * (j.writeWith .compact).length ≤ fuel) :
    readValue room fuel (j.writeWith .compact ++ rest) = .ok (j.settled, rest) := by
  obtain ⟨fuel, rfl⟩ : ∃ f, fuel = f + 1 := ⟨fuel - 1, by have := j.length_write_pos; omega⟩
  cases j with
  | null => rfl
  | bool b => cases b <;> rfl
  | int n => exact readValue_int n (by simpa [fits] using hp) hc room fuel
  | float x => exact readValue_float x hc room fuel
  | str t => exact readValue_str room fuel t rest
  | arr items =>
    obtain ⟨room, rfl⟩ : ∃ r, room = r + 1 := ⟨room - 1, by simp only [nesting] at hn; omega⟩
    have hn : itemNesting items ≤ room := by simpa [nesting] using hn
    cases items with
    | nil => exact readValue_arr_nil room fuel rest
    | cons j js =>
      have hf : 2 * (writeItems .compact (j :: js)).length ≤ fuel := by
        rw [writeWith, List.length_cons] at hf
        omega
      rw [readValue_arr_cons, readItems_write j js fuel hp hn hf rest]
      rfl
  | obj fields =>
    obtain ⟨room, rfl⟩ : ∃ r, room = r + 1 := ⟨room - 1, by simp only [nesting] at hn; omega⟩
    have hn : fieldNesting fields ≤ room := by simpa [nesting] using hn
    match fields with
    | [] => exact readValue_obj_nil room fuel rest
    | (name, j) :: fields =>
      have hf : 2 * (writeFields .compact ((name, j) :: fields)).length ≤ fuel := by
        rw [writeWith, List.length_cons] at hf
        omega
      rw [readValue_obj_cons, readFields_write name j fields fuel hp hn hf rest]
      rfl
termination_by fuel

theorem readItems_write (j : Json) (js : List Json) {room : Nat} (fuel : Nat)
    (hp : allFit (j :: js) = true) (hn : itemNesting (j :: js) ≤ room)
    (hf : 2 * (writeItems .compact (j :: js)).length ≤ fuel) (rest : Text) :
    readItems room fuel (writeItems .compact (j :: js) ++ rest) =
      .ok (settledItems (j :: js), rest) := by
  have hpos := j.length_write_pos
  rw [allFit, Bool.and_eq_true] at hp
  rw [itemNesting, Nat.max_le] at hn
  cases js with
  | nil =>
    rw [writeItems, List.length_append, show ("]" : Text).length = 1 from rfl] at hf
    obtain ⟨fuel, rfl⟩ : ∃ f, fuel = f + 1 := ⟨fuel - 1, by omega⟩
    rw [writeItems, List.append_assoc]
    exact readItems_last (readValue_write j fuel hp.1 (closed_cons (by decide) rest) hn.1 (by omega))
  | cons k js =>
    rw [writeItems_more, List.length_append, List.length_cons] at hf
    obtain ⟨fuel, rfl⟩ : ∃ f, fuel = f + 1 := ⟨fuel - 1, by omega⟩
    have hmore := readItems_write k js fuel hp.2 hn.2 (by omega) rest
    rw [← skipSpace_writeItems] at hmore
    rw [writeItems_more, List.append_assoc]
    exact readItems_next
      (readValue_write j fuel hp.1 (closed_cons (by decide) _) hn.1 (by omega)) hmore
termination_by fuel

theorem readFields_write (name : Text) (j : Json) (fields : Fields) {room : Nat} (fuel : Nat)
    (hp : valuesFit ((name, j) :: fields) = true) (hn : fieldNesting ((name, j) :: fields) ≤ room)
    (hf : 2 * (writeFields .compact ((name, j) :: fields)).length ≤ fuel) (rest : Text) :
    readFields room fuel (writeFields .compact ((name, j) :: fields) ++ rest) =
      .ok (settledFields ((name, j) :: fields), rest) := by
  have hpos := j.length_write_pos
  rw [valuesFit, Bool.and_eq_true] at hp
  rw [fieldNesting, Nat.max_le] at hn
  match fields with
  | [] =>
    rw [writeFields_one, List.length_append, List.length_cons, List.length_append] at hf
    obtain ⟨fuel, rfl⟩ : ∃ f, fuel = f + 1 := ⟨fuel - 1, by omega⟩
    have hvalue := readValue_write j fuel hp.1 (closed_cons (s := .char '\x7d') (by decide) rest)
      hn.1 (by omega)
    rw [← skipSpace_write] at hvalue
    have hread := readFields_last (readString_write name _) hvalue
    rw [writeFields_one]
    simpa [writeString_append, settledFields] using hread
  | (n, k) :: fields =>
    rw [writeFields_more, List.length_append, List.length_cons, List.length_append,
      List.length_cons] at hf
    obtain ⟨fuel, rfl⟩ : ∃ f, fuel = f + 1 := ⟨fuel - 1, by omega⟩
    have hmore := readFields_write n k fields fuel hp.2 hn.2 (by omega) rest
    rw [← skipSpace_writeFields] at hmore
    have hvalue := readValue_write j fuel hp.1 (closed_cons (s := .char ',') (by decide)
      (writeFields .compact ((n, k) :: fields) ++ rest)) hn.1 (by omega)
    rw [← skipSpace_write] at hvalue
    have hread := readFields_next (readString_write name _) hvalue hmore
    rw [writeFields_more]
    simpa [writeString_append, settledFields] using hread
termination_by fuel

end

variable [Runtime]

/-- A document that is not nested too deeply is read back from its text. -/
theorem read_write_settled {j : Json} (hp : j.fits = true) (hn : j.nesting ≤ Runtime.jsonDepth) :
    read j.write = .ok j.settled := by
  have hskip : skipSpace j.write = j.write := by
    have := skipSpace_write j []
    rwa [List.append_nil] at this
  have hvalue : readValue Runtime.jsonDepth (2 * j.write.length + 2) j.write = .ok (j.settled, []) := by
    have := readValue_write j (2 * j.write.length + 2) hp
      (show Closed [] from by simp [Closed]) hn (Nat.le_add_right _ 2)
    rwa [List.append_nil] at this
  have hstep : readStep j.write = .ok j.settled := by
    unfold readStep
    simp only [hskip, hvalue, bind, Except.bind]
    rfl
  unfold read
  dsimp only
  split
  · rename_i heq
    obtain ⟨s, t, hw, hs⟩ := j.write_eq_cons
    rw [write, hw] at heq
    exact absurd (List.cons.inj heq).1 (hs.ne (by decide))
  · rw [hstep]
    rfl

/-- A plain document that is not nested too deeply is read back as it is. -/
theorem read_write {j : Json} (hp : j.isPlain = true) (hn : j.nesting ≤ Runtime.jsonDepth) :
    read j.write = .ok j := by
  obtain ⟨hfits, hsettled⟩ := settled_of_isPlain j hp
  rw [read_write_settled hfits hn, hsettled]

end ClipActions.Json
