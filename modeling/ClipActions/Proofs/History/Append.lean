import ClipActions.History
import ClipActions.Proofs.Job.Keeps
import ClipActions.Proofs.Json.Entries
import ClipActions.Proofs.Text.Numerals

/-!
Appending to the history. A record of encodable texts becomes one line behind everything that the
file holds, with an identifier and a time of its own, and no other file changes.
-/
namespace ClipActions.History

variable {file l q : Path} {d e : Disk} {h : Host} {record : Json.Fields} {bytes : Bytes}

/-- The file lies at a location of the disk and can be appended to, once its directory is made. -/
structure Writable (file l : Path) (d : Disk) : Prop where
  directory : (d.makeDirectory file.parent).2 = none
  place : (d.makeDirectory file.parent).1.appendable file = .ok l
  allowed : d.refusal? (.append file) = none

/-- Bytes have been added at the end of the file at a location, and all other files are as they
were. -/
structure Added (l : Path) (bytes : Bytes) (d e : Disk) : Prop where
  content : e.contentOrEmpty l = d.contentOrEmpty l ++ bytes
  other : ∀ q, q ≠ l → e.contentOrEmpty q = d.contentOrEmpty q
  within : Disk.Within d e
  file : ∀ q c, d.node? q = some (.file c) → ∃ c', e.node? q = some (.file c')

theorem Writable.alike (hw : Writable file l d) (h : Disk.Alike d e) : Writable file l e := by
  obtain ⟨hf, hk⟩ := h.makeDirectory file.parent
  refine ⟨hf.trans hw.directory, ?_, ?_⟩
  · rw [hk.appendable_eq]
    exact hw.place
  · rw [h.refusal?]
    exact hw.allowed

theorem added_put (hd : Disk.Widened d e) (hl : e.node? l ≠ some .directory) (bytes : Bytes) :
    Added l bytes d (e.put l (.file (e.contentOrEmpty l ++ bytes))) := by
  have hput := Disk.node?_put_self e (.file (e.contentOrEmpty l ++ bytes)) hl
  have hother : ∀ q, q ≠ l →
      (e.put l (.file (e.contentOrEmpty l ++ bytes))).node? q = e.node? q :=
    fun q hq => Disk.node?_put_of_ne e _ hq
  have hcontent : e.contentOrEmpty l ++ bytes = d.contentOrEmpty l ++ bytes := by
    rw [hd.contentOrEmpty l]
  generalize e.contentOrEmpty l ++ bytes = content at hput hother hcontent ⊢
  refine ⟨?_, fun q hq => ?_, fun q hq => ?_, fun q c hq => ?_⟩
  · rw [← hcontent]
    simp [Disk.contentOrEmpty, hput]
  · rw [← hd.contentOrEmpty q]
    simp [Disk.contentOrEmpty, hother q hq]
  · have he := hd.within q hq
    rw [hother q fun hql => hl (hql ▸ he), he]
  · by_cases hql : q = l
    · subst hql
      exact ⟨_, hput⟩
    · exact ⟨c, by rw [hother q hql, hd.file hq]⟩

theorem result_writeLine {text : Text} (hw : Writable file l h.disk)
    (hb : Utf8.encode? text = some bytes) :
    ∃ disk, (writeLine file text).result h = (.ok (), { h with disk }) ∧
      Added l bytes h.disk disk := by
  have hwide := Disk.makeDirectory_widened h.disk file.parent
  have hplace := Disk.appendable_eq_ok.1 hw.place
  refine ⟨_, ?_, added_put hwide hplace.2 bytes⟩
  have hmade : (Job.makeDirectory file.parent).result h =
      (.ok (), { h with disk := (h.disk.makeDirectory file.parent).1 }) := by
    unfold Job.makeDirectory
    rw [Job.result_change, hw.directory]
  have hallowed : (h.disk.makeDirectory file.parent).1.refusal? (.append file) = none := by
    rw [hwide.refusal?]
    exact hw.allowed
  unfold writeLine
  rw [Job.result_bind_ok hmade, hb]
  dsimp only
  unfold Job.append
  rw [Job.result_change, Disk.append_of_appendable hw.place hallowed bytes]

/-- A record with an identifier and a time. -/
def stamped (record : Json.Fields) (id : Text) (now : Instant) : Json.Fields :=
  (record.put "id" (.str id)).put "timestamp" (.str now.record)

theorem encodable_stamped (he : ∀ t ∈ Json.fieldStrings record, t.Encodable) {id : Text}
    (hid : id.Encodable) (now : Instant) :
    ∀ t ∈ Json.fieldStrings (stamped record id now), t.Encodable := by
  have hput : ∀ (fields : Json.Fields) (name u : Text),
      (∀ t ∈ Json.fieldStrings fields, t.Encodable) → name.Encodable → u.Encodable →
        ∀ t ∈ Json.fieldStrings (fields.put name (.str u)), t.Encodable := by
    intro fields name u hf hn hu t ht
    rcases Json.fieldStrings_put fields name (.str u) t ht with h | h | h
    · exact h ▸ hn
    · rw [Json.strings, List.mem_singleton] at h
      exact h ▸ hu
    · exact hf t h
  have hname : ∀ u : Text, u.OfMarks → u.Encodable := fun u hu => hu.encodable
  exact hput _ "timestamp" _ (hput record "id" id he (hname _ (by decide)) hid)
    (hname _ (by decide)) (hname _ now.ofMarks_record)

theorem fieldNesting_stamped (record : Json.Fields) (id : Text) (now : Instant) :
    Json.fieldNesting (stamped record id now) ≤ Json.fieldNesting record :=
  Nat.le_trans (Json.fieldNesting_put_str _ _ _) (Json.fieldNesting_put_str _ _ _)

section

variable [Runtime]

theorem line_ofJsonFields (record : Json.Fields) : line (Value.ofJsonFields record) =
    if Runtime.jsonDepth ≤ Json.fieldNesting record then .error .tooDeepToWrite
    else .ok ((Json.obj record).write ++ "\n") := by
  unfold History.line
  rw [Value.table_ofJsonFields, Value.toJson_ofJson]
  simp only [Json.nesting, Nat.lt_succ_iff]

end

/-- An identifier that is made up at a point in time. -/
def Drawn (now : Instant) (id : Text) : Prop := ∃ draws, id = RunId.make now draws

theorem Drawn.encodable {now : Instant} {id : Text} (hd : Drawn now id) : id.Encodable := by
  have hdigit : ∀ d < 36, (Radix.digit d).isLone = false := by decide
  obtain ⟨draws, rfl⟩ := hd
  intro s hs
  unfold RunId.make at hs
  simp only [List.mem_append, List.mem_map] at hs
  rcases hs with (hs | hs) | ⟨n, -, rfl⟩
  · obtain ⟨d, hd, rfl⟩ := List.mem_map.1 hs
    exact hdigit d (Radix.digits_lt (by decide) _ d hd)
  · exact (by decide : ∀ s ∈ Text.ofString "-", s.isLone = false) s hs
  · exact hdigit _ (Nat.mod_lt n (by decide))

theorem Drawn.ne_nil {now : Instant} {id : Text} (hd : Drawn now id) : id ≠ [] := by
  obtain ⟨draws, rfl⟩ := hd
  simp [RunId.make, Text.ofString]

/-- What a record has under a name, if it counts as present. -/
def present? (record : Json.Fields) (name : Text) : Option Json :=
  (record.find? name).filter (·.truthy)

theorem given?_ofJsonFields (record : Json.Fields) (name : Text) :
    given? (Value.ofJsonFields record) name = (present? record name).map .ofJson := by
  unfold given? present?
  rw [Value.atName?_ofJsonFields]
  cases record.find? name with
  | none => rfl
  | some v => cases hv : v.truthy <;> simp [Option.filter, hv]

/-- A record with an identifier and a time, which are its own if it has them, and else are made up for
it at a point in time. -/
def Completes (record : Json.Fields) (now : Instant) (r : Json.Fields) : Prop :=
  ∃ id, (present? record "id" = some id ∨
      present? record "id" = none ∧ ∃ numbers, id = .str (RunId.make now numbers)) ∧
    r = (record.put "id" id).put "timestamp"
      ((present? record "timestamp").getD (.str now.record))

theorem result_newRunId (h : Host) : ∃ numbers drawn,
    Job.newRunId.result h = (.ok (RunId.make h.now numbers), { h with drawn }) := ⟨_, _, rfl⟩

/-- An entry is completed on the host alone, whatever it holds. -/
theorem result_complete (entry : Entry) (h : Host) : ∃ id drawn,
    (given? entry "id" = some id ∨
      given? entry "id" = none ∧ ∃ numbers, id = .str (RunId.make h.now numbers)) ∧
    (complete entry).result h =
      (.ok (Value.putEntry (.str "timestamp")
        ((given? entry "timestamp").getD (.str h.now.record))
        (Value.putEntry (.str "id") id entry)), { h with drawn }) := by
  unfold complete
  cases hid : given? entry "id" with
  | some id => exact ⟨id, h.drawn, .inl rfl, rfl⟩
  | none =>
    obtain ⟨numbers, drawn, hr⟩ := result_newRunId h
    have hnew : (Value.str <$> Job.newRunId : Job Data).result h =
        (.ok (.str (RunId.make h.now numbers)), { h with drawn }) := by
      rw [Job.result_map, hr]
    refine ⟨_, drawn, .inr ⟨rfl, numbers, rfl⟩, ?_⟩
    dsimp only
    rw [Job.result_bind_ok hnew]
    rfl

theorem result_complete_record (record : Json.Fields) (h : Host) : ∃ r drawn,
    Completes record h.now r ∧ (complete (Value.ofJsonFields record)).result h =
      (.ok (Value.ofJsonFields r), { h with drawn }) := by
  obtain ⟨id, drawn, hid, hr⟩ := result_complete (Value.ofJsonFields record) h
  obtain ⟨j, rfl, hj⟩ : ∃ j : Json, id = Value.ofJson j ∧ (present? record "id" = some j ∨
      present? record "id" = none ∧ ∃ numbers, j = .str (RunId.make h.now numbers)) := by
    rw [given?_ofJsonFields] at hid
    cases hp : present? record "id" with
    | some j =>
      rw [hp] at hid
      rcases hid with hid | ⟨hid, -⟩
      · cases hid
        exact ⟨j, rfl, .inl rfl⟩
      · cases hid
    | none =>
      rw [hp] at hid
      rcases hid with hid | ⟨-, numbers, rfl⟩
      · cases hid
      · exact ⟨.str (RunId.make h.now numbers), rfl, .inr ⟨rfl, numbers, rfl⟩⟩
  have htime : (given? (Value.ofJsonFields record) "timestamp").getD (.str h.now.record) =
      Value.ofJson ((present? record "timestamp").getD (.str h.now.record)) := by
    rw [given?_ofJsonFields]
    cases present? record "timestamp" <;> rfl
  refine ⟨_, drawn, ⟨j, hj, rfl⟩, ?_⟩
  rw [hr, htime, Value.putEntry_ofJsonFields, Value.putEntry_ofJsonFields]

section

variable [Runtime]

/-- What an append returns is what it was given, complete. -/
theorem append_returns {stored : Entry} {k : Host}
    (ha : (append file (Value.ofJsonFields record)).result h = (.ok stored, k)) :
    ∃ r, Completes record h.now r ∧ stored = Value.ofJsonFields r := by
  obtain ⟨r, drawn, hr, hcomplete⟩ := result_complete_record record h
  unfold append at ha
  rw [Job.result_bind_ok hcomplete] at ha
  obtain ⟨⟨⟩, m, -, hpure⟩ := Job.bind_ok ha
  cases hpure
  exact ⟨r, hr, rfl⟩

end

/-- A record without an identifier and a time gets both. -/
theorem Completes.stamped {now : Instant} {r : Json.Fields} (h : Completes record now r)
    (hid : record.find? "id" = none) (ht : record.find? "timestamp" = none) :
    ∃ id, Drawn now id ∧ r = stamped record id now := by
  have hnone : ∀ name, record.find? name = none → present? record name = none := by
    intro name hn
    rw [present?, hn]
    rfl
  obtain ⟨id, hid' | ⟨-, numbers, rfl⟩, rfl⟩ := h
  · rw [hnone _ hid] at hid'
    cases hid'
  · refine ⟨_, ⟨numbers, rfl⟩, ?_⟩
    rw [hnone _ ht]
    rfl

variable [Runtime]

/-- What the history keeps of a record is one line behind what the file held before. -/
theorem result_append (hid : record.find? "id" = none) (ht : record.find? "timestamp" = none)
    (he : ∀ t ∈ Json.fieldStrings record, t.Encodable)
    (hn : Json.fieldNesting record < Runtime.jsonDepth) (hw : Writable file l h.disk) :
    ∃ id drawn disk line, (append file (Value.ofJsonFields record)).result h =
        (.ok (Value.ofJsonFields (stamped record id h.now)), { h with drawn, disk }) ∧
      Drawn h.now id ∧ Utf8.encode? (Json.obj (stamped record id h.now)).write = some line ∧
      10 ∉ line ∧ Added l (line ++ [10]) h.disk disk := by
  obtain ⟨r, drawn, hr, hcomplete⟩ := result_complete_record record h
  obtain ⟨id, hdrawn, rfl⟩ := hr.stamped hid ht
  have hstamped : ∀ t ∈ (Json.obj (stamped record id h.now)).strings, t.Encodable := by
    rw [Json.strings]
    exact encodable_stamped he hdrawn.encodable h.now
  obtain ⟨line, hline, hten⟩ := Json.encode?_write hstamped
  have hbytes : Utf8.encode? ((Json.obj (stamped record id h.now)).write ++ "\n") =
      some (line ++ [10]) := by
    rw [Utf8.encode?_append, hline]
    rfl
  obtain ⟨disk, hwrite, hadded⟩ := result_writeLine (h := { h with drawn }) hw hbytes
  refine ⟨id, drawn, disk, line, ?_, hdrawn, hline, hten, hadded⟩
  have hstore : (store file (Value.ofJsonFields (stamped record id h.now))).result
      { h with drawn } = (.ok (), { h with drawn, disk }) := by
    have hdeep := Nat.lt_of_le_of_lt (fieldNesting_stamped record id h.now) hn
    unfold store
    rw [line_ofJsonFields, if_neg (Nat.not_le.2 hdeep)]
    exact hwrite
  unfold append
  rw [Job.result_bind_ok hcomplete, Job.result_bind, Job.result_handle, hstore]
  rfl

/-- Appending does no more than to complete the record and to change the disk. -/
theorem append_inherits {P : Effect → Prop} {S : ∀ {α : Type}, Job α → Prop}
    (f : Job.Hereditary P S) (hn : S Job.now) (hi : S Job.newRunId)
    (hc : ∀ g, S (Job.change g)) (file : Path) (entry : Entry) : S (append file entry) := by
  have hwrite : ∀ text, S (writeLine file text) := by
    intro text
    refine f.bind (hc _) fun _ => ?_
    split
    · exact hc _
    · refine f.bind (hc _) fun _ => ?_
      split
      · exact f.fail _
      · exact f.pure _
  have hcomplete : S (complete entry) := by
    unfold complete
    split
    · exact f.bind (f.pure _) fun _ => f.bind hn fun _ => f.pure _
    · exact f.bind (f.map _ hi) fun _ => f.bind hn fun _ => f.pure _
  refine f.bind hcomplete fun record => f.bind (f.handle ?_ fun e => f.fail _) fun _ => f.pure _
  unfold store
  split
  · exact hwrite _
  · exact f.fail _

/-! Whether or not anything can be stored, the trace does not tell of it. -/

open Host (Adds)

open Job (Keeps)

theorem append_adds {P : Effect → Prop} (file : Path) (entry : Entry) :
    Keeps (Adds P) (append file entry) := by
  have f := Host.frame_adds P
  exact append_inherits f.hereditary f.now f.newRunId Job.change_adds file entry

theorem trace_append {entry : Entry} {stored : Except Halt Entry} {k : Host}
    (ha : (append file entry).result h = (stored, k)) : k.trace = h.trace := by
  have hadds : Keeps (Adds fun _ => False) (append file entry) := append_adds file entry
  obtain ⟨es, hes, hnone⟩ := hadds.after ha
  rw [hes, List.eq_nil_iff_forall_not_mem.2 hnone, List.append_nil]

end ClipActions.History
