import ClipActions.Proofs.Disk.Directories
import ClipActions.Proofs.History.Append
import ClipActions.Proofs.Json.RoundTrip
import ClipActions.Proofs.Log.Delivery
import ClipActions.Proofs.Text.Lines

/-!
Reading the history. What is read depends on the bytes of the file alone, and one more line behind a
line feed is one more record in front of the others.
-/
namespace ClipActions.History

variable {file l : Path} {d e : Disk} {h k : Host} {c line bytes : Bytes} {fields : Json.Fields}
  {t u : Text}

/-- The text of a file, where every line ends in a line feed. -/
def textOf (c : Bytes) : Text := (Utf8.decode c).unifyNewlines

/-- The container that is nested too deeply in the first line of which that is true. -/
def tooDeep? (found : List (Nat × Json.Fault)) : Option Json.Container :=
  found.findSome? fun x => x.2.problem.tooDeep?

section

variable [Runtime]

/-- What the reading of all records in some bytes comes to. -/
def readable (c : Bytes) : Except Halt (List Record) :=
  match tooDeep? (faults (textOf c)) with
  | some container => .error (.failed (.tooDeep container))
  | none => .ok (records (textOf c))

/-- Bytes in which every line is closed. -/
def Closed (c : Bytes) : Prop := c = [] ∨ ∃ before, c = before ++ [10]

/-! Lines. -/

theorem readLine_nil : readLine [] = .ok none := rfl

end

theorem writeFields_concat (fields : Json.Fields) :
    ∃ t, Json.writeFields .compact fields = t ++ [.char '\x7d'] := by
  induction fields with
  | nil => exact ⟨[], rfl⟩
  | cons f fields ih =>
    obtain ⟨name, j⟩ := f
    cases fields with
    | nil =>
      refine ⟨Json.writeString name ++ .char ':' :: j.writeWith .compact, ?_⟩
      rw [Json.writeFields_one, List.append_assoc]
      rfl
    | cons g fields =>
      obtain ⟨t, ht⟩ := ih
      refine ⟨Json.writeString name ++ .char ':' :: (j.writeWith .compact ++ .char ',' :: t), ?_⟩
      rw [Json.writeFields_more, ht]
      simp

section

variable [Runtime]

/-- A plain record is read from its line. -/
theorem readLine_write (hp : (Json.obj fields).isPlain = true)
    (hn : (Json.obj fields).nesting ≤ Runtime.jsonDepth) :
    readLine (Json.obj fields).write = .ok (some fields) := by
  obtain ⟨middle, hmiddle⟩ := writeFields_concat fields
  have hw : (Json.obj fields).write = .char '\x7b' :: (middle ++ [.char '\x7d']) := by
    rw [Json.write, Json.writeWith, hmiddle]
  have htrim : Text.trim (Json.obj fields).write = (Json.obj fields).write := by
    rw [hw]
    refine Text.trim_eq_self (fun s hs => ?_) fun s hs => ?_
    · cases hs
      rfl
    · rw [← List.cons_append, List.getLast?_concat] at hs
      cases hs
      rfl
  have hsome : List.isEmpty (Json.obj fields).write = false := by
    rw [hw]
    rfl
  unfold readLine
  simp only [htrim, hsome, Json.read_write hp hn]
  rfl

/-! What is read, line by line. -/

/-- The container that is nested too deeply in a line. -/
def deep? (raw : Text) : Option Json.Container :=
  match readLine raw with
  | .error fault => fault.problem.tooDeep?
  | .ok _ => none

/-- What the reading of all records in some lines comes to. -/
def outcome (ls : List Text) : Except Halt (List Record) :=
  match ls.findSome? deep? with
  | some container => .error (.failed (.tooDeep container))
  | none => .ok (ls.filterMap fun raw => (readLine raw).toOption.join).reverse

/-- The numbers of the lines are of no account to what is read. -/
theorem tooDeep?_faults (t : Text) : tooDeep? (faults t) = t.lines.findSome? deep? := by
  unfold faults
  generalize t.lines = ls
  generalize 1 = n
  induction ls generalizing n with
  | nil => rfl
  | cons raw ls ih =>
    rw [List.zipIdx_cons, List.filterMap_cons, List.findSome?_cons, deep?]
    cases hr : readLine raw with
    | error fault =>
      simp only [hr, tooDeep?, List.findSome?_cons]
      cases fault.problem.tooDeep? with
      | some container => rfl
      | none => exact ih (n + 1)
    | ok found =>
      simp only [hr]
      exact ih (n + 1)

theorem readable_eq (c : Bytes) : readable c = outcome (textOf c).lines := by
  unfold readable outcome
  rw [tooDeep?_faults]
  rfl

end

/-- What some lines and others behind them come to: the records of the others stand in front, and
reading ends in the first line that is nested too deeply. -/
def followed (older newer : Except Halt (List Record)) : Except Halt (List Record) := do
  let rs ← older
  return (← newer) ++ rs

@[simp] theorem followed_ok (rs : List Record) (newer : Except Halt (List Record)) :
    followed (.ok rs) newer = newer.map (· ++ rs) := by
  cases newer <;> rfl

@[simp] theorem followed_none (newer : Except Halt (List Record)) :
    followed (.ok []) newer = newer := by
  cases newer with
  | error e => rfl
  | ok rs => simp [Except.map]

theorem followed_of_ok (older : Except Halt (List Record)) (rs : List Record) :
    followed older (.ok rs) = older.map (rs ++ ·) := by
  cases older <;> rfl

@[simp] theorem none_followed (older : Except Halt (List Record)) :
    followed older (.ok []) = older := by
  cases older <;> rfl

section

variable [Runtime]

theorem outcome_append (ls ms : List Text) :
    outcome (ls ++ ms) = followed (outcome ls) (outcome ms) := by
  unfold outcome
  rw [List.findSome?_append, List.filterMap_append]
  cases ls.findSome? deep? with
  | some container => rfl
  | none =>
    cases ms.findSome? deep? with
    | some container => rfl
    | none => simp [Except.map]

/-- A line that holds a record, or nothing, or something else. -/
theorem outcome_line {found : Option Record} (hr : readLine t = .ok found) :
    outcome [t] = .ok found.toList := by
  unfold outcome
  rw [List.findSome?_singleton, deep?, hr]
  cases found <;> simp [hr, Except.toOption]

/-- A line that holds no document, but is not nested too deeply. -/
theorem outcome_faulty {fault : Json.Fault} (hr : readLine t = .error fault)
    (hd : fault.problem.tooDeep? = none) : outcome [t] = .ok [] := by
  unfold outcome
  rw [List.findSome?_singleton, deep?, hr]
  simp [hr, hd, Except.toOption]

/-- Reading ends in a line that is nested too deeply. -/
theorem outcome_deep {fault : Json.Fault} {container : Json.Container}
    (hr : readLine t = .error fault) (hd : fault.problem.tooDeep? = some container) :
    outcome [t] = .error (.failed (.tooDeep container)) := by
  unfold outcome
  rw [List.findSome?_singleton, deep?, hr]
  simp [hd]

/-- Empty lines hold nothing. -/
theorem outcome_filled (ls : List Text) : outcome (ls.filter (!·.isEmpty)) = outcome ls := by
  induction ls with
  | nil => rfl
  | cons l ls ih =>
    have hsplit (ms : List Text) : outcome (l :: ms) = followed (outcome [l]) (outcome ms) :=
      outcome_append [l] ms
    cases l with
    | nil =>
      have hnil : outcome [[]] = .ok [] := outcome_line readLine_nil
      rw [List.filter_cons_of_neg (by simp), ih, hsplit, hnil, followed_none]
    | cons s l => rw [List.filter_cons_of_pos (by simp), hsplit, hsplit ls, ih]

theorem readable_filled (c : Bytes) : readable c = outcome (Text.filled (Utf8.decode c)) := by
  rw [readable_eq, Text.filled, outcome_filled]
  rfl

/-- What stands on a line of its own. -/
theorem readable_text (ht : ∀ s ∈ t, ¬ Text.EndsLine s) (hb : Utf8.decode bytes = t) :
    readable bytes = outcome [t] := by
  rw [readable_filled, hb, Text.filled_eq_self ht, outcome_filled]

/-! Bytes behind others. -/

def EndsLine (n : UInt8) : Prop := n = 10 ∨ n = 13

instance (n : UInt8) : Decidable (EndsLine n) := inferInstanceAs (Decidable (n = 10 ∨ n = 13))

end

theorem EndsLine.filled {n : UInt8} (hn : EndsLine n) (a b : Bytes) :
    Text.filled (Utf8.decode (a ++ n :: b)) =
      Text.filled (Utf8.decode a) ++ Text.filled (Utf8.decode b) := by
  rcases hn with rfl | rfl
  · rw [Utf8.decode_ascii (by decide)]
    exact Text.filled_append (.inl rfl) _ _
  · rw [Utf8.decode_ascii (by decide)]
    exact Text.filled_append (.inr rfl) _ _

section

variable [Runtime]

/-- Whatever stands on the two sides of a line end is read apart. -/
theorem readable_line {n : UInt8} (hn : EndsLine n) (a b : Bytes) :
    readable (a ++ n :: b) = followed (readable a) (readable b) := by
  rw [readable_filled, hn.filled, outcome_append, ← readable_filled, ← readable_filled]

end

/-- Bytes behind which a line begins. -/
def Opens (c : Bytes) : Prop := c = [] ∨ ∃ before n, EndsLine n ∧ c = before ++ [n]

theorem Closed.opens (hc : Closed c) : Opens c :=
  hc.imp_right fun ⟨before, h⟩ => ⟨before, 10, .inl rfl, h⟩

theorem filled_behind (hc : Opens c) (more : Bytes) : Text.filled (Utf8.decode (c ++ more)) =
    Text.filled (Utf8.decode c) ++ Text.filled (Utf8.decode more) := by
  rcases hc with rfl | ⟨before, n, hn, rfl⟩
  · rfl
  · have hnil : Text.filled (Utf8.decode []) = [] := rfl
    rw [List.append_assoc, List.singleton_append, hn.filled, hn.filled, hnil, List.append_nil]

section

variable [Runtime]

/-- What stands where a line begins is read as lines of its own. -/
theorem readable_behind (hc : Opens c) (more : Bytes) :
    readable (c ++ more) = followed (readable c) (readable more) := by
  rw [readable_filled, filled_behind hc, outcome_append, ← readable_filled, ← readable_filled]

/-- What is read of a line that is closed. -/
theorem readable_closed (ht : ∀ s ∈ t, 0x20 ≤ s.code)
    (hb : Utf8.decode bytes = t ++ [.char '\n']) : readable bytes = outcome [t] := by
  rw [readable_filled, hb, Text.filled_append (.inl rfl), Text.filled_eq_self (Text.not_endsLine ht),
    outcome_append, outcome_filled]
  exact none_followed _

end

theorem decode_record (hb : Utf8.encode? (Json.obj fields).write = some line) :
    Utf8.decode (line ++ [10]) = (Json.obj fields).write ++ [.char '\n'] := by
  apply Utf8.decode_encode?
  rw [Utf8.encode?_append, hb]
  rfl

section

variable [Runtime]

/-- A record on a line of its own comes in front of the others, and no line is faulty that was not. -/
theorem readable_added (hc : Closed c) (hp : (Json.obj fields).isPlain = true)
    (hn : (Json.obj fields).nesting ≤ Runtime.jsonDepth)
    (hb : Utf8.encode? (Json.obj fields).write = some line) :
    readable (c ++ (line ++ [10])) = (readable c).map (fields :: ·) := by
  have hshown : ∀ s ∈ (Json.obj fields).write, 0x20 ≤ s.code :=
    fun s hs => (Json.shownFrom_write _ s hs).1
  rw [readable_behind hc.opens, readable_closed hshown (decode_record hb),
    outcome_line (readLine_write hp hn), followed_of_ok]
  rfl

theorem mem_records {r : Record} :
    r ∈ records (textOf c) ↔ ∃ raw ∈ Text.filled (Utf8.decode c), readLine raw = .ok (some r) := by
  have hfull : ∀ raw, readLine raw = .ok (some r) → raw.isEmpty = false := by
    intro raw hr
    cases raw with
    | nil => cases hr
    | cons s raw => rfl
  unfold records
  rw [List.mem_reverse, List.mem_filterMap]
  constructor
  · rintro ⟨raw, hmem, hr⟩
    have hread : readLine raw = .ok (some r) := by
      rcases hraw : readLine raw with fault | found <;> rw [hraw] at hr <;> cases hr
      rfl
    exact ⟨raw, List.mem_filter.2 ⟨hmem, by rw [hfull raw hread]; rfl⟩, hread⟩
  · rintro ⟨raw, hmem, hread⟩
    exact ⟨raw, (List.mem_filter.1 hmem).1, by rw [hread]; rfl⟩

/-- What is added behind lines that are closed takes no record away. -/
theorem mem_records_behind {r : Record} (hc : Closed c) (hr : r ∈ records (textOf c)) (more : Bytes) :
    r ∈ records (textOf (c ++ more)) := by
  obtain ⟨raw, hraw, hread⟩ := mem_records.1 hr
  rw [mem_records, filled_behind hc.opens]
  exact ⟨raw, List.mem_append_left _ hraw, hread⟩

end

theorem Closed.append {more : Bytes} (hc : Closed c) (hm : Closed more) : Closed (c ++ more) := by
  rcases hm with rfl | ⟨before, rfl⟩
  · rwa [List.append_nil]
  · exact .inr ⟨c ++ before, (List.append_assoc ..).symm⟩

theorem closed_line (line : Bytes) : Closed (line ++ [10]) := .inr ⟨line, rfl⟩

section

variable [Runtime]

/-- Bytes in which no line is nested too deeply. -/
def Legible (c : Bytes) : Prop := tooDeep? (faults (textOf c)) = none

/-- Just what is legible can be read, and comes to the records in it. -/
theorem readable_eq_ok {rs : List Record} :
    readable c = .ok rs ↔ Legible c ∧ rs = records (textOf c) := by
  unfold readable Legible
  cases tooDeep? (faults (textOf c)) with
  | some container => exact ⟨nofun, nofun⟩
  | none => exact ⟨fun h => ⟨rfl, (Except.ok.inj h).symm⟩, fun h => congrArg Except.ok h.2.symm⟩

/-- Reading fails in no other way than at a line that is nested too deeply. -/
theorem readable_eq_error {e : Halt} (h : readable c = .error e) :
    ∃ container, e = .failed (.tooDeep container) := by
  unfold readable at h
  split at h
  · rename_i container _
    exact ⟨container, (Except.error.inj h).symm⟩
  · cases h

/-- A record on a line of its own is read, whatever stands before it. -/
theorem mem_records_added (hc : Closed c) (hp : (Json.obj fields).isPlain = true)
    (hn : (Json.obj fields).nesting ≤ Runtime.jsonDepth)
    (hb : Utf8.encode? (Json.obj fields).write = some line) :
    fields ∈ records (textOf (c ++ (line ++ [10]))) := by
  have hone : readable (line ++ [10]) = .ok [fields] := readable_added (.inl rfl) hp hn hb
  have hmem : fields ∈ records (textOf (line ++ [10])) := by
    rw [← (readable_eq_ok.1 hone).2]
    exact List.mem_singleton_self _
  obtain ⟨raw, hraw, hread⟩ := mem_records.1 hmem
  rw [mem_records, filled_behind hc.opens]
  exact ⟨raw, List.mem_append_right _ hraw, hread⟩

/-! Reading depends on the bytes alone. -/

theorem passOver_ok {found : Nat × Json.Fault} (hd : found.2.problem.tooDeep? = none) (h : Host) :
    ((passOver file found).result h).1 = .ok () := by
  unfold passOver
  rw [hd]
  exact Job.log_ok (.of_nestings rfl) h

theorem result_passOvers (found : List (Nat × Json.Fault)) (h : Host) :
    ((found.forM (passOver file)).result h).1 = match tooDeep? found with
      | some container => .error (.failed (.tooDeep container))
      | none => .ok () := by
  induction found generalizing h with
  | nil => rfl
  | cons x found ih =>
    rw [List.forM_eq_forM, List.forM_cons, ← List.forM_eq_forM]
    unfold tooDeep?
    rw [List.findSome?_cons]
    cases hd : x.2.problem.tooDeep? with
    | some container =>
      have hfail : (passOver file x).result h = (.error (.failed (.tooDeep container)), h) := by
        unfold passOver
        rw [hd]
        rfl
      rw [Job.result_bind_error hfail]
    | none =>
      rw [Job.result_bind_ok (Prod.ext (passOver_ok hd h) rfl), ih]
      rfl

theorem result_readAll (hr : h.disk.read file = .ok c) :
    ((readAll file).result h).1 = readable c := by
  have htext : (Job.readText file).result h = (.ok (textOf c), h) := by
    unfold Job.readText
    rw [Job.result_bind_ok (Job.result_get h), hr]
    rfl
  have hpass : (((faults (textOf c)).forM (passOver file)).result h).1 = _ :=
    result_passOvers (faults (textOf c)) h
  unfold readAll readable
  rw [Job.result_bind_ok htext]
  cases hd : tooDeep? (faults (textOf c)) with
  | some container =>
    rw [hd] at hpass
    rw [Job.result_bind_error (Prod.ext hpass rfl)]
  | none =>
    rw [hd] at hpass
    rw [Job.result_bind_ok (Prod.ext hpass rfl)]
    rfl

end

/-! What reading is made of. -/

section Parts

open Job (Hereditary)

variable {P : Effect → Prop} {S : ∀ {α : Type}, Job α → Prop}

variable [Runtime]

theorem passOver_inherits (f : Hereditary P S)
    (hs : ∀ x : Effect, x.Logs "history_line_skipped" → P x) (found : Nat × Json.Fault) :
    S (passOver file found) := by
  unfold passOver
  split
  · exact f.fail _
  · exact f.log (.of_names rfl) hs

/-- Reading does no more than to look for the file, to read it and to tell of what it passes over. -/
theorem read_inherits (f : Hereditary P S) (ht : S (Job.somethingAt file))
    (hr : S (Job.readText file)) (hs : ∀ x : Effect, x.Logs "history_line_skipped" → P x)
    (limit : Json) : S (read limit file) := by
  have hall : S (readAll file) :=
    f.bind hr fun _ => f.bind (f.forM (passOver_inherits f hs) _) fun _ => f.pure _
  refine f.bind ht fun there => ?_
  split
  · exact f.bind hall fun _ => f.bind (f.check _) fun _ => f.pure _
  · exact f.pure _

theorem find?_inherits (f : Hereditary P S) (ht : S (Job.somethingAt file))
    (hr : S (Job.readText file)) (hs : ∀ x : Effect, x.Logs "history_line_skipped" → P x)
    (id : Json) : S (find? id file) :=
  f.bind (read_inherits f ht hr hs .null) fun _ => f.pure _

end Parts
end ClipActions.History
