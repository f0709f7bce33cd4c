import ClipActions.Proofs.Run.Ending

/-!
How a run is kept. Its record is one line more in the history, and the event that the log has of it
can be read off the record; then the result is told.
-/
namespace ClipActions

open History (Writable Added stamped)

namespace Host

variable {h k m : Host} {l q : Path} {bytes : Bytes}

/-- The log goes where it has gone. -/
structure SameLog (h k : Host) : Prop where
  logOpen : k.LogOpen
  logsInto : ∀ {q}, k.LogsInto q ↔ h.LogsInto q

theorem SameLog.of_kept (ho : h.LogOpen) (ht : k.target.file? = h.target.file?)
    (hk : ∀ {q}, h.LogsInto q → k.LogsInto q) : SameLog h k := by
  refine ⟨fun p hp => ?_, fun {q} => ⟨fun hq => ?_, hk⟩⟩
  · obtain ⟨l, hl⟩ := ho p (ht.symm.trans hp)
    exact ⟨l, hk hl⟩
  · obtain ⟨p, -, hp, -, -⟩ := id hq
    obtain ⟨l, hl⟩ := ho p (ht.symm.trans hp)
    rwa [hq.eq (hk hl)]

theorem Logged.sameLog (hk : Logged h k) (ho : h.LogOpen) : SameLog h k :=
  .of_kept ho hk.file? (hk.logsInto ho)

/-- Bytes have been added to the file at a location, in one piece. Records of the log stand before
and behind them only where the log goes into that file. -/
def Gains (l : Path) (bytes : Bytes) (h k : Host) : Prop :=
  ∃ before after, k.disk.contentOrEmpty l = h.disk.contentOrEmpty l ++ before ++ bytes ++ after ∧
    (¬ h.LogsInto l → before = [] ∧ after = [])

theorem Logged.gains (hk : Logged h k) (ho : h.LogOpen) (l : Path) : Gains l [] h k := by
  rcases hk.disk ho with he | ⟨q, hq, hg⟩
  · exact ⟨[], [], by simp [he], fun _ => ⟨rfl, rfl⟩⟩
  · by_cases hl : l = q
    · subst hl
      obtain ⟨s, hs⟩ := hg.contentOrEmpty l
      exact ⟨s, [], by simp [hs], fun hn => absurd hq hn⟩
    · exact ⟨[], [], by simp [hg.contentOrEmpty_of_ne hl], fun _ => ⟨rfl, rfl⟩⟩

/-- What the log gets before does not count. -/
theorem Gains.after (hm : Gains l bytes k m) (hk : Gains l [] h k) (hs : SameLog h k) :
    Gains l bytes h m := by
  obtain ⟨b, a, hb, hn⟩ := hk
  obtain ⟨b', a', hb', hn'⟩ := hm
  refine ⟨b ++ a ++ b', a', ?_, fun hl => ?_⟩
  · rw [hb', hb]
    simp
  · obtain ⟨rfl, rfl⟩ := hn hl
    obtain ⟨rfl, rfl⟩ := hn' fun h => hl (hs.logsInto.1 h)
    exact ⟨rfl, rfl⟩

/-- Nor does what it gets behind. -/
theorem Gains.before (hk : Gains l bytes h k) (hm : Gains l [] k m) (hs : SameLog h k) :
    Gains l bytes h m := by
  obtain ⟨b, a, hb, hn⟩ := hk
  obtain ⟨b', a', hb', hn'⟩ := hm
  refine ⟨b, a ++ b' ++ a', ?_, fun hl => ?_⟩
  · rw [hb', hb]
    simp
  · obtain ⟨rfl, rfl⟩ := hn hl
    obtain ⟨rfl, rfl⟩ := hn' fun h => hl (hs.logsInto.1 h)
    exact ⟨rfl, rfl⟩

/-- Bytes that are added to a file leave the log where it is. -/
theorem sameLog_of_added (ha : Added l bytes h.disk k.disk) (ho : h.LogOpen)
    (ht : k.target.file? = h.target.file?) : SameLog h k := by
  refine .of_kept ho ht fun {q} hq => ?_
  obtain ⟨p, c, hp, hloc, hn⟩ := hq
  obtain ⟨c', hn'⟩ := ha.file q c hn
  exact ⟨p, c', ht.trans hp, Disk.locate_of_within ha.within hloc, hn'⟩

theorem gains_of_added (ha : Added l bytes h.disk k.disk) : Gains l bytes h k :=
  ⟨[], [], by simp [ha.content], fun _ => ⟨rfl, rfl⟩⟩

end Host

namespace History

/-- What an identifier and a time do not touch. -/
theorem find?_stamped {record : Json.Fields} {id name : Text} {now : Instant} (hid : name ≠ "id")
    (ht : name ≠ "timestamp") : (stamped record id now).find? name = record.find? name := by
  rw [stamped, Json.Fields.find?_put, Json.Fields.find?_put, if_neg ht, if_neg hid]

theorem find?_stamped_id (record : Json.Fields) (id : Text) (now : Instant) :
    (stamped record id now).find? "id" = some (.str id) := by
  rw [stamped, Json.Fields.find?_put, Json.Fields.find?_put, if_neg (by decide), if_pos rfl]

end History

namespace Run

variable {r : Run} {latency : Int} {outcome : Outcome} {id : Text} {now : Instant}

/-- The record of a run that replays no other. -/
def known (r : Run) (latency : Int) (outcome : Outcome) : Json.Fields := [
  ("action", .str r.provenance.action),
  ("args", .arr r.options.args),
  ("source", .str r.provenance.source),
  ("trigger", .str r.provenance.trigger),
  ("provider", .str r.provider.type),
  ("model", .str r.provider.model),
  ("latency_ms", .int latency),
  ("status", .str outcome.status),
  ("copy", .bool r.options.copy),
  ("input", r.text),
  outcome.field]

theorem record_eq (r : Run) (latency : Int) (outcome : Outcome) : r.record latency outcome =
    if r.options.replayOf.truthy then
      (r.known latency outcome).put "replay_of" r.options.replayOf
    else r.known latency outcome := rfl

theorem find?_record {name : Text} (hn : name ≠ "replay_of") :
    (r.record latency outcome).find? name = (r.known latency outcome).find? name := by
  rw [record_eq]
  split
  · rw [Json.Fields.find?_put, if_neg hn]
  · rfl

/-- A run has no identifier or time for its record. -/
theorem find?_record_stamp (r : Run) (latency : Int) (outcome : Outcome) :
    (r.record latency outcome).find? "id" = none ∧
      (r.record latency outcome).find? "timestamp" = none := by
  rw [find?_record (by decide), find?_record (by decide)]
  cases outcome <;> exact ⟨rfl, rfl⟩

/-- A field of the stored record that is the run's own. -/
theorem find?_stored {name : Text} (hn : name ∉ (["id", "timestamp", "replay_of"] : List Text)) :
    (stamped (r.record latency outcome) id now).find? name =
      (r.known latency outcome).find? name := by
  simp only [List.mem_cons, List.not_mem_nil, or_false, not_or] at hn
  rw [History.find?_stamped hn.1 hn.2.1, find?_record hn.2.2]

theorem known_nodup (r : Run) (latency : Int) (outcome : Outcome) :
    ((r.known latency outcome).map Prod.fst).Nodup := by
  cases outcome <;> exact of_decide_eq_true rfl

theorem find?_replayOf :
    ((stamped (r.record latency outcome) id now).find? "replay_of").getD .null =
      if r.options.replayOf.truthy then r.options.replayOf else .null := by
  rw [History.find?_stamped (by decide) (by decide), record_eq]
  split
  · rw [Json.Fields.find?_put, if_pos rfl]
    rfl
  · cases outcome <;> rfl

/-- A run that replays a record names it. -/
theorem find?_replayOf_str {replayed : Text} (hr : r.options.replayOf = .str replayed)
    (hn : replayed ≠ []) :
    (stamped (r.record latency outcome) id now).find? "replay_of" = some (.str replayed) := by
  rw [History.find?_stamped (by decide) (by decide), record_eq, hr, if_pos (Json.truthy_str.2 hn),
    Json.Fields.find?_put, if_pos rfl]

/-- What the log has of a run whose record is stored, as the record tells it. -/
def event (record : Json.Fields) : Log.Event :=
  let field (name : Text) : Json := (record.find? name).getD .null
  let size (name : Text) : Int := match field name with
    | .str t => t.length
    | _ => 0
  { name := "action_run"
    level := if (field "status").sameLeaf (.str "success") then Log.Level.info
      else Log.Level.warning
    fields := [
      ("run_id", .ofJson (field "id")),
      ("action", .ofJson (field "action")),
      ("status", .ofJson (field "status")),
      ("source", .ofJson (field "source")),
      ("trigger", .ofJson (field "trigger")),
      ("provider", .ofJson (field "provider")),
      ("model", .ofJson (field "model")),
      ("latency_ms", .ofJson (field "latency_ms")),
      ("input_chars", .int (size "input")),
      ("output_chars", .int (size "output")),
      ("replay_of", .ofJson (field "replay_of")),
      ("error", .ofJson (field "error"))] }

section

variable [Runtime]

/-- A run has texts where texts are promised: its input, its output, and what it replays. Its
arguments may be anything that can be written within a record. -/
structure Typed (r : Run) (outcome : Outcome) : Prop where
  input : ∃ t, r.text = .str t
  output : ∀ output, outcome = .success output → ∃ t, output = .str t
  replayOf : r.options.replayOf = .null ∨ ∃ t, r.options.replayOf = .str t
  args : Json.itemNesting r.options.args + 1 < Runtime.jsonDepth

/-- What a run comes to can be stored: there are texts where texts are promised, and all of its
texts can be written. -/
structure Storable (r : Run) (w : Work) : Prop where
  typed : r.Typed w.outcome
  encodable : ∀ t ∈ Json.fieldStrings (r.record w.latency w.outcome), t.Encodable

/-- A record is nested too deeply only if something is that it holds. -/
theorem fieldNesting_record (latency : Int) (htext : r.text.nesting < Runtime.jsonDepth)
    (hargs : Json.itemNesting r.options.args + 1 < Runtime.jsonDepth)
    (hfield : outcome.field.2.nesting < Runtime.jsonDepth)
    (hreplay : r.options.replayOf = .null ∨ ∃ t, r.options.replayOf = .str t) :
    Json.fieldNesting (r.record latency outcome) < Runtime.jsonDepth := by
  have hknown : Json.fieldNesting (r.known latency outcome) < Runtime.jsonDepth := by
    simp only [known, Json.fieldNesting, Json.nesting]
    omega
  rw [record_eq]
  split
  · rcases hreplay with hr | ⟨u, hr⟩
    · rename_i hb
      rw [hr] at hb
      cases hb
    · rw [hr]
      exact Nat.lt_of_le_of_lt (Json.fieldNesting_put_str _ _ _) hknown
  · exact hknown

/-- Only the arguments are nested within a record. -/
theorem Typed.nesting (ht : r.Typed outcome) (latency : Int) :
    Json.fieldNesting (r.record latency outcome) < Runtime.jsonDepth := by
  obtain ⟨t, hinput⟩ := ht.input
  have hpos : 0 < Runtime.jsonDepth := Runtime.jsonDepth_pos
  refine fieldNesting_record latency (by rw [hinput]; exact hpos) ht.args ?_ ht.replayOf
  cases outcome with
  | success output =>
    obtain ⟨u, rfl⟩ := ht.output output rfl
    exact hpos
  | failure error => exact hpos

/-- The log tells what the record does, and no field of the event is nested. -/
theorem logRun_eq (ht : r.Typed outcome) (latency : Int) (id : Text) (now : Instant) :
    r.logRun (.str id) latency outcome =
        Job.log (event (stamped (r.record latency outcome) id now)) ∧
      (event (stamped (r.record latency outcome) id now)).Shallow := by
  obtain ⟨t, hinput⟩ := ht.input
  have hreplay : (r.options.replayOf.truthy = true ∧ ∃ u, r.options.replayOf = .str u) ∨
      r.options.replayOf.truthy = false := by
    rcases ht.replayOf with hr | ⟨u, hr⟩
    · exact .inr (by rw [hr]; rfl)
    · cases hb : r.options.replayOf.truthy with
      | true => exact .inl ⟨rfl, u, hr⟩
      | false => exact .inr rfl
  have hfields : ∀ f ∈ r.known latency outcome, (r.known latency outcome).find? f.1 = some f.2 :=
    fun f hf => Json.Fields.find?_of_mem (known_nodup r latency outcome) hf
  unfold event
  dsimp only
  simp (disch := decide) only [find?_stored, find?_replayOf, History.find?_stamped_id]
  unfold logRun
  rw [hinput]
  cases outcome with
  | success output =>
    obtain ⟨u, rfl⟩ := ht.output output rfl
    have hnone : (r.known latency (.success (.str u))).find? "error" = none := rfl
    generalize (r.known latency (.success (.str u))).find? = find at hfields hnone ⊢
    simp only [known, Outcome.field, hinput, List.forall_mem_cons] at hfields
    simp only [hfields, hnone, Json.size, Job.check, pure_bind]
    refine ⟨rfl, ?_⟩
    rcases hreplay with ⟨hb, v, hv⟩ | hb
    · rw [hb, hv]
      exact .of_nestings rfl
    · rw [hb]
      exact .of_nestings rfl
  | failure error =>
    have hnone : (r.known latency (.failure error)).find? "output" = none := rfl
    generalize (r.known latency (.failure error)).find? = find at hfields hnone ⊢
    simp only [known, Outcome.field, hinput, List.forall_mem_cons] at hfields
    simp only [hfields, hnone, Json.size, Job.check, pure_bind]
    refine ⟨rfl, ?_⟩
    rcases hreplay with ⟨hb, v, hv⟩ | hb
    · rw [hb, hv]
      exact .of_nestings rfl
    · rw [hb]
      exact .of_nestings rfl

/-- A run whose record can be stored is kept: its record is one line more, and the log tells of
it. -/
theorem result_keep {file l : Path} {k : Host} (ht : r.Typed outcome)
    (he : ∀ t ∈ Json.fieldStrings (r.record latency outcome), t.Encodable)
    (hw : Writable file l k.disk) (ho : k.LogOpen) :
    ∃ id line m, (r.keep file latency outcome).result k = (.ok (), m) ∧ History.Drawn k.now id ∧
      Utf8.encode? (Json.obj (stamped (r.record latency outcome) id k.now)).write = some line ∧
      10 ∉ line ∧ Host.Gains l (line ++ [10]) k m ∧
      m.trace = k.trace ++ [.logged k.target
        (event (stamped (r.record latency outcome) id k.now)).level
        ((event (stamped (r.record latency outcome) id k.now)).record k.now)] := by
  obtain ⟨hid, htime⟩ := find?_record_stamp r latency outcome
  obtain ⟨id, drawn, disk, line, hr, hdrawn, hline, hten, hadded⟩ :=
    History.result_append hid htime he (ht.nesting latency) hw
  obtain ⟨hlog, hshallow⟩ := logRun_eq ht latency id k.now
  have hname := History.find?_stamped_id (r.record latency outcome) id k.now
  refine ⟨id, line, ((Job.log (event (stamped (r.record latency outcome) id k.now))).result
    { k with drawn, disk }).2, ?_, hdrawn, hline, hten, ?_, ?_⟩
  · have hstored : (Job.attempt (History.append file (entry (r.record latency outcome)))).result k =
        (.ok (.ok (Value.ofJsonFields (stamped (r.record latency outcome) id k.now))),
          { k with drawn, disk }) := by
      unfold entry
      rw [Job.result_attempt, hr]
    unfold keep
    rw [Job.result_bind_ok hstored]
    dsimp only
    rw [Value.atName?_ofJsonFields, hname]
    show (r.logRun (.str id) latency outcome).result { k with drawn, disk } = _
    rw [hlog]
    exact Prod.ext (Job.log_ok hshallow _) rfl
  · have hlogged : Host.Logged { k with drawn, disk }
        ((r.logRun (.str id) latency outcome).result { k with drawn, disk }).2 :=
      (logRun_inherits (Host.frame_extends fun _ => True).hereditary _ _ _ (fun _ _ => trivial)
        _).logged
    have hsame : Host.SameLog k { k with drawn, disk } := Host.sameLog_of_added hadded ho rfl
    rw [hlog] at hlogged
    exact (Host.gains_of_added hadded).before (hlogged.gains hsame.logOpen l) hsame
  · obtain ⟨disk', target', hm⟩ := Job.host_log hshallow { k with drawn, disk }
    rw [hm]

end

variable {registry : Registry} {name : Json} {o : Options} {ctx : Context} {ask : Gate.Asker}
  {host h k m : Host} {w : Work} {l : Path}

variable [Runtime]

theorem result_conclude {file : Path}
    (hk : (r.keep file w.latency w.outcome).result k = (.ok (), m)) :
    (r.conclude file w).result k = match w.ending with
      | .ok _ => (.ok 0, m)
      | .error (.failed f) => (.ok 1, { m with
          trace := m.trace ++ [.complained ("Error: " ++ Secret.redact f.label ++ "\n")] })
      | .error (.interrupted i) => (.error (.interrupted i), m) := by
  unfold conclude
  rw [Job.result_bind_ok hk]
  obtain ⟨latency, ending⟩ := w
  rcases ending with (f | i) | output <;> rfl

/-- A run that is under way is kept once, and its result is that of its end. -/
theorem result_kept (u : UnderWay registry name o ctx host r h) (he : r.Ends ctx.daemon ask h w k)
    (hask : ∀ m, Job.Keeps (Host.Extends fun _ => True) (ask m)) (ho : host.LogOpen)
    (hw : Writable ctx.historyFile l host.disk) (hs : r.Storable w) :
    ∃ id line m, History.Drawn k.now id ∧
      Utf8.encode? (Json.obj (stamped (r.record w.latency w.outcome) id k.now)).write = some line ∧
      10 ∉ line ∧ host.Gains l (line ++ [10]) m ∧
      m.trace = k.trace ++ [.logged k.target
        (event (stamped (r.record w.latency w.outcome) id k.now)).level
        ((event (stamped (r.record w.latency w.outcome) id k.now)).record k.now)] ∧
      (perform registry name o ctx ask).result host = match w.ending with
        | .ok _ => (.ok 0, m)
        | .error (.failed f) => (.ok 1, { m with
            trace := m.trace ++ [.complained ("Error: " ++ Secret.redact f.label ++ "\n")] })
        | .error (.interrupted i) => (.error (.interrupted i), m) := by
  have hacquire : Host.Extends (fun _ => True) host h := (acquire_extends o ctx).after u.acquired
  have hlogged : Host.Logged host k := hacquire.logged.trans (he.extended hask).logged
  have hsame := hlogged.sameLog ho
  obtain ⟨id, line, m, hkeep, hdrawn, hline, hten, hgains, htrace⟩ :=
    result_keep hs.typed hs.encodable (hw.alike (hlogged.alike ho)) hsame.logOpen
  refine ⟨id, line, m, hdrawn, hline, hten, hgains.after (hlogged.gains ho l) hsame, htrace, ?_⟩
  rw [result_perform u, result_finish, Job.result_bind_ok he.result, result_conclude hkeep]

end Run
end ClipActions
