import ClipActions.Proofs.Job.Halts
import ClipActions.Proofs.Job.Keeps
import ClipActions.Proofs.Json.Entries
import ClipActions.Proofs.Json.Nesting

/-!
Logging an event. An event whose fields are not nested too deeply is in the trace, and nothing stops its
logging; of any other event nothing is done.
-/
namespace ClipActions

namespace Log

variable {e : Event}

section

variable [Runtime]

/-- A list of texts nests no more than one container, which the stack bears. -/
theorem Event.Shallow.of_nestings (h : (e.fields.all fun f => decide (f.2.nesting ≤ 1)) = true) :
    e.Shallow := by
  have hfields : ∀ f ∈ e.fields, f.2.nesting ≤ 1 := by simpa using h
  exact fun f hf => Nat.le_trans (hfields f hf) Runtime.logDepth_pos

end

theorem nesting_texts (ts : List Text) : (Value.list (ts.map .str) : Data).nesting ≤ 1 := by
  have hitems : Value.itemNesting (ts.map .str : List Data) = 0 := by
    induction ts with
    | nil => rfl
    | cons t ts ih =>
      rw [List.map_cons, Value.itemNesting, ih]
      rfl
  rw [Value.nesting, hitems]

variable [Runtime]

theorem Event.nesting_payload (he : e.Shallow) (now : Instant) :
    (e.payload now).nesting ≤ Runtime.logDepth + 1 := by
  have hfields : ∀ f ∈ e.fields.map (fun (x : Text × Data) => (x.1, x.2.logSafe)),
      f.2.nesting ≤ Runtime.logDepth := by
    intro f hf
    obtain ⟨g, hg, rfl⟩ := List.mem_map.1 hf
    exact Nat.le_trans (Json.nesting_logSafe g.2) (he g hg)
  have hcommon : Json.fieldNesting [("ts", .str now.event), ("event", .str e.name)] ≤
      Runtime.logDepth := Nat.zero_le _
  exact Nat.succ_le_succ (Json.fieldNesting_update _ hcommon hfields)

/-- A record that is written can be read. -/
theorem Event.payload_readable (he : e.Shallow) (now : Instant) :
    (e.payload now).nesting ≤ Runtime.jsonDepth :=
  Nat.le_trans (nesting_payload he now) Runtime.logDepth_lt

theorem Block.parsed_record (he : e.Shallow) (now : Instant) :
    ∃ fields?, Block.parsed (e.record now) = .ok fields? := by
  unfold Block.parsed
  split
  · split
    · exact ⟨_, rfl⟩
    · exact ⟨_, rfl⟩
    · rename_i fault hr
      rw [Json.tooDeep?_read_write (Event.payload_readable he now) hr]
      exact ⟨_, rfl⟩
  · exact ⟨_, rfl⟩

end Log

namespace Job

variable {e : Log.Event}

variable [Runtime]

theorem result_log (he : e.Shallow) (h : Host) : (log e).result h =
    (logRecord { level := e.level, message := e.record h.now }).result
      { h with trace := h.trace ++ [.logged h.target e.level (e.record h.now)] } := by
  rw [log_of_shallow he, result_bind_ok (result_get h), result_bind_ok (result_emit _ h)]

theorem host_logRecord (r : Log.Record) (h : Host) :
    ∃ disk target, ((logRecord r).result h).2 = { h with disk, target } := by
  unfold logRecord
  split
  · rw [result_bind_ok (result_get h)]
    cases h.target with
    | observer => exact ⟨h.disk, h.target, rfl⟩
    | nowhere => exact ⟨h.disk, h.target, rfl⟩
    | file p first =>
      dsimp only
      cases Log.Block.format first h.now r with
      | error f => exact ⟨h.disk, h.target, rfl⟩
      | ok block => exact ⟨_, _, rfl⟩
  · exact ⟨h.disk, h.target, rfl⟩

/-- A shallow event is in the trace once it is logged, and otherwise only the log file has changed. -/
theorem host_log (he : e.Shallow) (h : Host) : ∃ disk target, ((log e).result h).2 =
    { h with trace := h.trace ++ [.logged h.target e.level (e.record h.now)], disk, target } := by
  rw [result_log he]
  exact host_logRecord _ _

/-- Nothing stops the logging of a record whose message can be taken apart. -/
theorem logRecord_ok {r : Log.Record} {fields? : Option Json.Fields}
    (hr : Log.Block.parsed r.message = .ok fields?) (h : Host) :
    ((logRecord r).result h).1 = .ok () := by
  unfold logRecord
  split
  · rw [result_bind_ok (result_get _)]
    dsimp only
    split
    · rfl
    · rfl
    · rename_i p first _
      have hblock : ∃ block, Log.Block.format first h.now r = .ok block :=
        ⟨_, by simp only [Log.Block.format, Log.Block.fields, hr]; rfl⟩
      obtain ⟨block, hb⟩ := hblock
      rw [hb]
      rfl
  · rfl

theorem result_logRecord_ok {r : Log.Record} {fields? : Option Json.Fields}
    (hr : Log.Block.parsed r.message = .ok fields?) (h : Host) :
    ∃ disk target, (logRecord r).result h = (.ok (), { h with disk, target }) := by
  obtain ⟨disk, target, hk⟩ := host_logRecord r h
  exact ⟨disk, target, Prod.ext (logRecord_ok hr h) hk⟩

/-- Nothing stops the logging of a shallow event. -/
theorem log_ok (he : e.Shallow) (h : Host) : ((log e).result h).1 = .ok () := by
  obtain ⟨fields?, hparsed⟩ := Log.Block.parsed_record he h.now
  rw [result_log he]
  exact logRecord_ok hparsed _

/-- A shallow event is in the trace, and otherwise only the log file has changed. -/
theorem result_log_ok (he : e.Shallow) (h : Host) :
    ∃ disk target, (log e).result h = (.ok (), { h with
      trace := h.trace ++ [.logged h.target e.level (e.record h.now)], disk, target }) := by
  obtain ⟨disk, target, hk⟩ := host_log he h
  exact ⟨disk, target, Prod.ext (log_ok he h) hk⟩

/-- What is left of a plain event is one effect that logs its name. -/
theorem result_log_plain (he : e.Shallow) (hp : e.Plain) (h : Host) :
    ∃ disk target x, (log e).result h = (.ok (), { h with disk, target, trace := h.trace ++ [x] }) ∧
      x.Logs e.name := by
  obtain ⟨disk, target, hlog⟩ := result_log_ok he h
  exact ⟨disk, target, _, hlog, congrArg some (Log.Event.nameIn_record hp h.now)⟩

/-- A warning whose event is shallow is told once, to the user and to the log. -/
theorem result_warn {message event : Text} {fields : List (Text × Data)}
    (hs : Log.Event.Shallow
      ⟨event, Log.Level.warning, ("message", .str (Secret.redact message)) :: fields⟩) (h : Host) :
    ∃ disk target, (warn message event fields).result h = (.ok (), { h with
      disk, target
      trace := h.trace ++ [
        .complained ("Warning: " ++ Secret.redact message ++ "\n"),
        .logged h.target Log.Level.warning (Log.Event.record
          ⟨event, Log.Level.warning, ("message", .str (Secret.redact message)) :: fields⟩ h.now)] }) := by
  unfold warn
  dsimp only
  rw [complain, result_bind_ok (result_emit _ h), logWarning]
  obtain ⟨disk, target, hlog⟩ := result_log_ok hs { h with
    trace := h.trace ++ [.complained ("Warning: " ++ Secret.redact message ++ "\n")] }
  refine ⟨disk, target, hlog.trans ?_⟩
  simp only [List.append_assoc, List.cons_append, List.nil_append]

/-- Nothing stops a warning with shallow fields. -/
theorem warn_ok {message event : Text} {fields : List (Text × Data)}
    (hf : (fields.all fun f => decide (f.2.nesting ≤ 1)) = true) (h : Host) :
    ((warn message event fields).result h).1 = .ok () := by
  have hshallow : Log.Event.Shallow
      ⟨event, Log.Level.warning, ("message", .str (Secret.redact message)) :: fields⟩ :=
    .of_nestings (by rw [List.all_cons, hf]; rfl)
  obtain ⟨disk, target, hwarn⟩ := result_warn hshallow h
  rw [hwarn]

theorem log_halts (he : e.Shallow) (E : Halt → Prop) : Halts E (log e) := by
  intro h e' hx
  rw [log_ok he h] at hx
  cases hx

end Job
end ClipActions
