import ClipActions.Action.Builtin
import ClipActions.Proofs.History.Refusal
import ClipActions.Proofs.Job.Accounts
import ClipActions.Proofs.Json.Depth
import ClipActions.Proofs.Run.Passage

/-!
What a run makes of the documents that the agent gives it. It reports one error if it ends with 1 and
none if it ends otherwise, whatever the documents are. A failure passes through it in three cases,
all of them outside of what a run takes into its result: the configuration cannot be read as one, the
text has no length although its record has been stored, or the output is nested too deeply for a
record.
-/
namespace ClipActions

open Host (Adds)

open Job (Accounts Halts Keeps)

namespace Provider

variable {config : Json}

/-- A configuration that a provider can be read from: an object whose provider is one too, if it
counts as present. -/
def Readable (config : Json) : Prop :=
  ∃ fields, config = .obj fields ∧
    ∀ block, Json.Fields.find? fields "provider" = some block → block.truthy = true →
      ∃ entries, block = .obj entries

theorem get_ofJson {φ : Type} (j : Json) (name : Text) :
    (Value.ofJson j : Value φ).get name = (j.get name).map Value.ofJson := by
  cases j with
  | obj fields =>
    show (Value.table (Value.ofJsonFields fields) : Value φ).get name = _
    rw [Value.get, Value.atName?_ofJsonFields]
    show _ = Except.ok (Value.ofJson ((Json.Fields.find? fields name).getD .null))
    cases Json.Fields.find? fields name <;> rfl
  | _ => rfl

theorem ofBlock_ok (entries : Json.Fields) : ∃ p, ofBlock (.ofJson (.obj entries)) = .ok p := by
  unfold ofBlock
  simp only [get_ofJson, Json.get]
  exact ⟨_, rfl⟩

theorem ofBlock_error {block : Json} (hb : ¬ ∃ entries, block = .obj entries) :
    ∃ m, ofBlock (.ofJson block) = .error m := by
  unfold ofBlock
  rw [get_ofJson]
  cases block with
  | obj entries => exact absurd ⟨entries, rfl⟩ hb
  | _ => exact ⟨_, rfl⟩

theorem orEmpty_ofJson {φ : Type} (j : Json) :
    (Value.ofJson j : Value φ).orEmpty = .ofJson (if j.truthy then j else .obj []) := by
  rw [Value.orEmpty, Value.truthy_ofJson]
  split <;> rfl

/-- A provider is read off a configuration unless that is not readable. -/
theorem ofConfig_error : (∃ m, ofConfig (.ofJson config) = .error m) ↔ ¬ Readable config := by
  unfold ofConfig Readable
  rw [get_ofJson]
  cases config with
  | obj fields =>
    have hget : (Json.obj fields).get "provider" =
        .ok ((Json.Fields.find? fields "provider").getD .null) := rfl
    rw [hget]
    show (∃ m, ofBlock (Value.ofJson
      ((Json.Fields.find? fields "provider").getD .null)).orEmpty = .error m) ↔ _
    rw [orEmpty_ofJson]
    constructor
    · rintro ⟨m, hm⟩ ⟨fields', hfields, hr⟩
      cases hfields
      obtain ⟨entries, hblock⟩ : ∃ entries, (if
          ((Json.Fields.find? fields "provider").getD .null).truthy then
          (Json.Fields.find? fields "provider").getD .null else .obj []) = Json.obj entries := by
        split
        · rename_i ht
          cases hf : Json.Fields.find? fields "provider" with
          | none =>
            rw [hf] at ht
            cases ht
          | some block =>
            rw [hf] at ht
            exact hr block hf ht
        · exact ⟨[], rfl⟩
      obtain ⟨p, hp⟩ := ofBlock_ok entries
      rw [hblock, hp] at hm
      cases hm
    · intro hn
      refine ofBlock_error fun ⟨entries, hblock⟩ => hn ⟨fields, rfl, fun block hf ht => ?_⟩
      rw [hf, Option.getD_some, if_pos ht] at hblock
      exact ⟨entries, hblock⟩
  | _ => exact iff_of_true ⟨_, rfl⟩ fun ⟨_, hfields, _⟩ => by cases hfields

end Provider

namespace Agent

variable {socket : Path} {method path : Text} {body : Option Json} {h k : Host} {j : Json}

variable [Runtime]

/-- No document of the agent is nested deeper than can be written again. -/
theorem nesting_request (hr : (request socket method path body).result h = (.ok j, k)) :
    j.nesting ≤ Runtime.jsonDepth := by
  unfold request at hr
  obtain ⟨there, m, -, hr⟩ := Job.bind_ok hr
  dsimp only at hr
  split at hr
  · cases hr
  split at hr
  · cases hr
  obtain ⟨reply, m', -, hr⟩ := Job.bind_ok hr
  cases reply with
  | failed e =>
    dsimp only at hr
    split at hr
    · obtain ⟨_, _, -, hr⟩ := Job.bind_ok hr
      cases hr
    · obtain ⟨_, _, -, hr⟩ := Job.bind_ok hr
      cases hr
  | reply status bytes =>
    obtain ⟨document, m'', hdocument, hr⟩ := Job.bind_ok hr
    split at hr
    · split at hr
      · rename_i found
        cases hr
        unfold documentIn at hdocument
        cases hread : Json.readBytes bytes with
        | error c =>
          rw [hread] at hdocument
          cases hdocument
        | ok read =>
          rw [hread] at hdocument
          cases hdocument
          exact Json.nesting_readBytes hread
      · cases hr
    · obtain ⟨_, _, -, hr⟩ := Job.bind_ok hr
      cases hr

theorem nesting_inputText {ctx : Context} (hr : (inputText ctx).result h = (.ok j, k)) :
    j.nesting < Runtime.jsonDepth := by
  have hpos : 0 < Runtime.jsonDepth := Runtime.jsonDepth_pos
  unfold inputText at hr
  split at hr
  · cases hr
    exact hpos
  · obtain ⟨reply, m, hreply, hr⟩ := Job.bind_ok hr
    obtain ⟨text, m', htext, hr⟩ := Job.bind_ok hr
    cases hr
    unfold Json.orElse
    split
    · exact Json.nesting_get (nesting_request hreply) (Job.check_ok htext)
    · exact hpos

end Agent

namespace Model

variable {c : Client} {operation : Operation} {task : Task} {h k : Host}
  {prompt system text language response output : Json}

variable [Runtime]

/-- An answer is not given before the length of its content has been logged. -/
theorem size_of_generate (hr : (c.generate prompt system).result h = (.ok response, k)) :
    ∃ size, (response.get "content" (.str [])).bind Json.size = .ok size := by
  obtain ⟨size, h₁, -, hr⟩ := Job.bind_ok hr
  obtain ⟨_, h₂, -, hr⟩ := Job.bind_ok hr
  obtain ⟨start, h₃, -, hr⟩ := Job.bind_ok hr
  obtain ⟨_, h₄, -, hr⟩ := Job.bind_ok hr
  obtain ⟨_, h₅, hlog, hr⟩ := Job.bind_ok hr
  cases hr
  unfold Client.logResponse at hlog
  obtain ⟨usage, k₁, -, hlog⟩ := Job.bind_ok hlog
  obtain ⟨model, k₂, -, hlog⟩ := Job.bind_ok hlog
  obtain ⟨latency, k₃, -, hlog⟩ := Job.bind_ok hlog
  obtain ⟨size, k₄, hsize, -⟩ := Job.bind_ok hlog
  exact ⟨size, Job.check_ok hsize⟩

theorem size_of_apply (hr : (c.apply operation text language).result h = (.ok output, k)) :
    ∃ size, output.size = .ok size := by
  obtain ⟨_, h₁, -, hr⟩ := Job.bind_ok hr
  obtain ⟨_, h₂, -, hr⟩ := Job.bind_ok hr
  obtain ⟨response, h₃, hgenerate, hcontent⟩ := Job.bind_ok hr
  obtain ⟨size, hsize⟩ := size_of_generate hgenerate
  rw [Job.check_ok hcontent] at hsize
  exact ⟨size, hsize⟩

/-- What a built-in action gives back has a length. -/
theorem size_of_perform
    (hr : (runProgram c (Action.perform operation task)).result h = (.ok output, k)) :
    ∃ size, output.size = .ok size := by
  have hanswer : ∃ m, ((c.answer (.known (.apply operation task.text
      (Action.language operation task.args)))).result h) = (.ok output, m) := by
    unfold Action.perform at hr
    rw [result_askOnce] at hr
    split at hr
    · cases hr
      exact ⟨_, ‹_›⟩
    · cases hr
  obtain ⟨m, hanswer⟩ := hanswer
  obtain ⟨ask, m₁, hask, happly⟩ := Job.bind_ok hanswer
  cases hask
  exact size_of_apply happly

end Model

/-- The question at the terminal reports no error. -/
theorem Gate.askTerminal_errorless (p : Provider) :
    Keeps (Adds Effect.Errorless) (askTerminal (question p)) := by
  have f := Host.frame_adds Effect.Errorless
  exact askTerminal_inherits f.hereditary f.readLine rfl

namespace Run

variable {registry : Registry} {name : Json} {o : Options} {ctx : Context} {ask : Gate.Asker}
  {host h k m : Host} {r : Run} {w : Work} {output : Json}

/-! What a run reports. -/

theorem answer_accounts (w : Work) : Accounts w.answer := by
  unfold Work.answer
  split
  · exact .throw _
  · split
    · exact .succeed
    · exact .report _

section

variable [Runtime]

theorem conclude_accounts (r : Run) (file : Path) (w : Work) : Accounts (r.conclude file w) := by
  have f := Host.frame_adds Effect.Errorless
  rw [conclude_eq]
  refine .bind (f.hereditary.attempt (History.append_adds _ _)) fun stored => .bind ?_ fun _ =>
    answer_accounts w
  exact tell_inherits f.hereditary file w stored (fun _ => Effect.errorless_warning _)
    (fun _ hx => hx.logs.errorless) fun _ hx => hx.logs.errorless

theorem reportUnknown_accounts (registry : Registry) (name : Json) :
    Accounts (do reportUnknown registry name; return 1) := by
  have hlog : Keeps (Adds Effect.Errorless) (Job.log {
      name := "action_unknown", level := Log.Level.warning
      fields := [
        ("action", .ofJson name), ("available", .list (registry.ids.map .str))] }) :=
    (Host.frame_adds _).hereditary.log (.of_names rfl) fun _ hx => hx.errorless
  unfold reportUnknown
  rw [bind_assoc]
  refine .bind hlog fun _ h => ⟨_, List.append_assoc _ _ _, .failed ?_⟩
  rw [reports_append]
  exact congrArg (· + 0) (List.countP_singleton.trans (if_pos (Effect.isReport_error _)))

/-- A run reports one error if it ends with 1, and none if it ends with 0 or not by itself. -/
theorem perform_accounts (hask : ∀ p, Keeps (Adds Effect.Errorless) (ask (Gate.question p)))
    (registry : Registry) (name : Json) (o : Options) (ctx : Context) :
    Accounts (perform registry name o ctx ask) := by
  have f := Host.frame_adds Effect.Errorless
  have hmodel : Model.Told Effect.Errorless :=
    ⟨fun _ hx => hx.errorless, fun _ hx => hx.logs.errorless, fun _ hx => hx.errorless,
      fun _ hx => hx.logs.errorless⟩
  have hacquire : Keeps (Adds Effect.Errorless) (acquire o ctx) :=
    acquire_keeps f ⟨fun _ _ _ => rfl, fun _ hx => hx.errorless⟩ o ctx
  have hproceed : ∀ r : Run, Keeps (Adds Effect.Errorless) (r.proceed ctx.daemon ask) := fun r =>
    proceed_inherits f.hereditary (fun _ => rfl) hmodel (fun _ hx => hx.logs.errorless) hask
      (fun _ _ => rfl) (fun _ _ => rfl) _
  refine .bind (f.hereditary.check _) fun found => ?_
  cases found with
  | none => exact reportUnknown_accounts registry name
  | some a =>
    refine .bind (f.hereditary.attempt hacquire) fun acquired => ?_
    cases acquired with
    | error e => exact .report _
    | ok acquired =>
      refine .bind (f.hereditary.check _) fun provider => ?_
      exact .bind (hproceed _) fun w => conclude_accounts _ _ _

/-! Which failures pass through. -/

/-- What a caller asks of a run can stand in a record. -/
structure Options.Shallow (o : Options) : Prop where
  args : Json.itemNesting o.args + 1 < Runtime.jsonDepth
  input : ∀ j, o.input = some j → j.nesting < Runtime.jsonDepth
  replayOf : o.replayOf = .null ∨ ∃ id, o.replayOf = .str id

end

theorem nesting_output (r : Run) (latency : Int) (output : Json) :
    output.nesting ≤ Json.fieldNesting (r.record latency (.success output)) := by
  have hfound : (r.record latency (.success output)).find? "output" = some output :=
    find?_record (by decide)
  exact Json.nesting_of_find? hfound

section

variable [Runtime]

/-- What makes a run of a built-in action end with a failure instead of an exit code. -/
inductive Escapes (registry : Registry) (name : Json) (o : Options) (ctx : Context)
    (ask : Gate.Asker) (host : Host) : Prop where
  /-- No provider can be read off the configuration. -/
  | unreadable {text config : Json} {h : Host}
    (ha : (acquire o ctx).result host = (.ok (text, config), h))
    (hc : ¬ Provider.Readable config)
  /-- The record is stored, but the text has no length to be logged. -/
  | unmeasured {r : Run} {h m n : Host} {w : Work} {stored : History.Entry}
    (u : UnderWay registry name o ctx host r h)
    (hw : (r.proceed ctx.daemon ask).result h = (.ok w, m))
    (hs : (History.append ctx.historyFile (entry (r.record w.latency w.outcome))).result m =
      (.ok stored, n))
    (ht : ¬ ∃ size, r.text.size = .ok size)
  /-- The model's answer is nested too deeply for a record. -/
  | tooDeep {r : Run} {h m : Host} {w : Work} {output : Json}
    (u : UnderWay registry name o ctx host r h)
    (hw : (r.proceed ctx.daemon ask).result h = (.ok w, m)) (ho : w.ending = .ok output)
    (hd : Runtime.jsonDepth ≤ output.nesting)

theorem UnderWay.nesting_text (u : UnderWay registry name o ctx host r h) (ho : o.Shallow) :
    r.text.nesting < Runtime.jsonDepth := by
  have hpresent : ∀ (j : Json) (k : Host),
      ((if j.truthy then return j else Job.fail .emptyInput : Job Json).result k).1 = .ok r.text →
        j = r.text := by
    intro j k hj
    split at hj
    · cases hj
      rfl
    · cases hj
  have htext := text_of_acquired u.acquired
  unfold acquireText at htext
  split at htext
  · rename_i j hj
    exact hpresent _ _ htext ▸ ho.input j hj
  · rw [Job.result_bind] at htext
    split at htext
    · rename_i hinput
      exact hpresent _ _ htext ▸ Agent.nesting_inputText hinput
    · cases htext

theorem work_returned {c : Model.Client} (hw : (r.work c).result h = (.ok w, k))
    (ho : w.ending = .ok output) :
    ∃ n p, (Model.runProgram c (r.action.run r.task)).result n = (.ok output, p) := by
  obtain ⟨start, n, -, hw⟩ := Job.bind_ok hw
  obtain ⟨ending, n₁, hending, hw⟩ := Job.bind_ok hw
  obtain ⟨latency, n₂, -, hw⟩ := Job.bind_ok hw
  cases hw
  rw [Job.result_settle] at hending
  refine ⟨n, n₁, ?_⟩
  cases hprogram : (Model.runProgram c (r.action.run r.task)).result n with
  | mk returned p =>
    rw [hprogram] at hending
    cases hending
    cases returned with
    | error e => cases e <;> cases ho
    | ok v =>
      cases ho
      rfl

/-- Work whose output has been delivered is the work that was done. -/
theorem settleWork_ok {done : Work} (hw : (r.settleWork (.ok done)).result h = (.ok w, k))
    (ho : w.ending = .ok output) : done = w := by
  unfold settleWork at hw
  dsimp only at hw
  split at hw
  · cases hw
    rfl
  · rw [Job.result_bind_ok (Job.result_settle _ _)] at hw
    split at hw
    · cases hw
      rfl
    · cases hw
      cases ho

/-- An output is what the program of the action has returned. -/
theorem output_returned {daemon : Bool} (hw : (r.proceed daemon ask).result h = (.ok w, k))
    (ho : w.ending = .ok output) : ∃ c n p,
      (Model.runProgram c (r.action.run r.task)).result n = (.ok output, p) := by
  rw [result_proceed] at hw
  split at hw
  · cases hw
    cases ho
  · unfold afterGate at hw
    rw [Job.result_bind_ok (Job.result_settle _ _)] at hw
    generalize hworked : (r.prepare >>= r.work).result _ = worked at hw
    obtain ⟨result, n⟩ := worked
    cases result with
    | error e =>
      cases hw
      cases ho
    | ok done =>
      obtain rfl := settleWork_ok hw ho
      obtain ⟨c, m, -, hwork⟩ := Job.bind_ok hworked
      obtain ⟨n', p, hreturned⟩ := work_returned hwork ho
      exact ⟨c, n', p, hreturned⟩

end

theorem outcome_eq_success : w.outcome = .success output ↔ w.ending = .ok output := by
  unfold Work.outcome
  rcases w.ending with (f | i) | v
  · exact iff_of_false (fun h => by cases h) fun h => by cases h
  · exact iff_of_false (fun h => by cases h) fun h => by cases h
  · exact ⟨fun h => by cases h; rfl, fun h => by cases h; rfl⟩

/-- Once its record is dealt with, a run does not fail. -/
theorem answer_halts (w : Work) : Halts (fun e => ∀ f, e ≠ .failed f) w.answer := by
  unfold Work.answer
  split
  · exact .throw fun f hf => by cases hf
  · split
    · exact .pure _
    · exact (Halts.emit _).bind fun _ => .pure _

section

variable [Runtime]

/-- The conclusion of a run fails where the telling of it does. -/
theorem report_fails (file : Path) (w : Work) (stored : Except Failure History.Entry) (h : Host) :
    (∃ f, ((r.report file w stored).result h).1 = .error (.failed f)) ↔
      ∃ f, ((r.tell file w stored).result h).1 = .error (.failed f) := by
  unfold report
  rw [Job.result_bind]
  split
  · rename_i heq
    rw [heq]
    refine iff_of_false (fun ⟨f, hf⟩ => answer_halts w _ _ hf f rfl) fun ⟨f, hf⟩ => ?_
    cases hf
  · rename_i heq
    rw [heq]
    exact ⟨fun ⟨f, hf⟩ => ⟨f, by cases hf; rfl⟩, fun ⟨f, hf⟩ => ⟨f, by cases hf; rfl⟩⟩

/-- A run whose output has a length can be told of unless its text has none. -/
theorem logRun_fails (hr : r.Replays)
    (hsize : ∀ output, w.ending = .ok output → ∃ size, output.size = .ok size) (id : Text) :
    (∃ f, ((r.logRun (.str id) w.latency w.outcome).result m).1 = .error (.failed f)) ↔
      ¬ ∃ size, r.text.size = .ok size := by
  constructor
  · rintro ⟨f, hf⟩ htext
    rw [logRun_ok hr id htext fun output ho => hsize output (outcome_eq_success.1 ho)] at hf
    cases hf
  · intro htext
    cases hs : r.text.size with
    | ok size => exact absurd ⟨size, hs⟩ htext
    | error e =>
      unfold logRun
      rw [hs, Job.result_bind_error (Job.result_check_error e m)]
      exact ⟨_, rfl⟩

/-- A run whose output has a length is concluded without a failure, unless its record is nested too
deeply or its text has no length when the record is stored. -/
theorem conclude_fails (hr : r.Replays)
    (hsize : ∀ output, w.ending = .ok output → ∃ size, output.size = .ok size) (file : Path) :
    (∃ f, ((r.conclude file w).result m).1 = .error (.failed f)) ↔
      Runtime.jsonDepth ≤ Json.fieldNesting (r.record w.latency w.outcome) ∨
      (∃ stored n, (History.append file (entry (r.record w.latency w.outcome))).result m =
        (.ok stored, n)) ∧ ¬ ∃ size, r.text.size = .ok size := by
  obtain ⟨hid, htime⟩ := find?_record_stamp r w.latency w.outcome
  have hends := History.append_ends hid htime file m
  rw [conclude_eq, Job.result_bind, Job.result_attempt]
  unfold entry
  cases ha : (History.append file (Value.ofJsonFields (r.record w.latency w.outcome))).result m with
  | mk result n =>
    rw [ha] at hends
    rcases hends with ⟨rfl, hdeep⟩ | ⟨hdeep, ⟨stored, rfl⟩ | ⟨reason, rfl⟩⟩
    · exact iff_of_true ((report_fails _ _ _ _).2 ⟨_, rfl⟩) (.inl hdeep)
    · obtain ⟨record, hcomplete, rfl⟩ := History.append_returns ha
      obtain ⟨id, -, rfl⟩ := hcomplete.stamped hid htime
      dsimp only
      rw [report_fails, tell_stamped, logRun_fails hr hsize]
      constructor
      · exact fun htext => .inr ⟨⟨_, _, rfl⟩, htext⟩
      · rintro (h | ⟨-, htext⟩)
        · exact absurd h (Nat.not_le.2 hdeep)
        · exact htext
    · dsimp only
      rw [report_fails]
      refine iff_of_false (fun ⟨f, hf⟩ => ?_) ?_
      · rw [tell, Job.warn_ok rfl] at hf
        · cases hf
        · exact fun h => by cases h
      · rintro (h | ⟨⟨stored, k, h⟩, -⟩)
        · exact absurd h (Nat.not_le.2 hdeep)
        · cases h

end

theorem mem_builtins {a : Action} (hb : a ∈ Action.builtins) :
    ∃ operation, a.run = Action.perform operation := by
  simp only [Action.builtins, List.mem_cons, List.not_mem_nil, or_false] at hb
  rcases hb with rfl | rfl | rfl | rfl | rfl | rfl | rfl <;> exact ⟨_, rfl⟩

section

variable [Runtime]

theorem UnderWay.replays (u : UnderWay registry name o ctx host r h) (ho : o.Shallow) :
    r.Replays := by
  rw [Replays, u.options]
  exact ho.replayOf

/-- A run of a built-in action that is under way fails if its record is too deep, or if the record is
stored and its text cannot be measured then. -/
theorem UnderWay.fails_iff (u : UnderWay registry name o ctx host r h)
    (hb : r.action ∈ Action.builtins) (ho : o.Shallow)
    (hw : (r.proceed ctx.daemon ask).result h = (.ok w, m)) :
    (∃ f, ((perform registry name o ctx ask).result host).1 = .error (.failed f)) ↔
      Runtime.jsonDepth ≤ Json.fieldNesting (r.record w.latency w.outcome) ∨
      (∃ stored n, (History.append ctx.historyFile
        (entry (r.record w.latency w.outcome))).result m = (.ok stored, n)) ∧
        ¬ ∃ size, r.text.size = .ok size := by
  have hsize : ∀ output, w.ending = .ok output → ∃ size, output.size = .ok size := by
    intro output hout
    obtain ⟨c, n, p, hreturned⟩ := output_returned hw hout
    obtain ⟨operation, hrun⟩ := mem_builtins hb
    rw [hrun] at hreturned
    exact Model.size_of_perform hreturned
  rw [result_perform u, result_finish, Job.result_bind_ok hw]
  exact conclude_fails (u.replays ho) hsize _

/-- Of all that a record holds only an output can be too deep. -/
theorem UnderWay.tooDeep_output (u : UnderWay registry name o ctx host r h) (ho : o.Shallow)
    (hdeep : Runtime.jsonDepth ≤ Json.fieldNesting (r.record w.latency w.outcome)) :
    ∃ output, w.ending = .ok output ∧ Runtime.jsonDepth ≤ output.nesting := by
  have hfield : ¬ w.outcome.field.2.nesting < Runtime.jsonDepth := by
    intro hfield
    have hargs : Json.itemNesting r.options.args + 1 < Runtime.jsonDepth := by
      rw [u.options]
      exact ho.args
    have hrecord := fieldNesting_record w.latency (u.nesting_text ho) hargs hfield (u.replays ho)
    exact absurd hdeep (Nat.not_le.2 hrecord)
  cases hout : w.outcome with
  | success output =>
    rw [hout] at hfield
    exact ⟨output, outcome_eq_success.1 hout, Nat.not_lt.1 hfield⟩
  | failure error =>
    rw [hout] at hfield
    exact absurd Runtime.jsonDepth_pos hfield

/-- Whatever documents the agent gives, a run of a built-in action reports one error if it ends with
1 and none otherwise, and it ends with a failure in three cases alone. -/
theorem fails_only_by_escape {a : Action} (hn : registry.lookUp name = .ok (some a))
    (hb : a ∈ Action.builtins) (ho : o.Shallow)
    (hask : ∀ p, Keeps (Adds Effect.Errorless) (ask (Gate.question p))) :
    (∃ es, ((perform registry name o ctx ask).result host).2.trace = host.trace ++ es ∧
      Accounted ((perform registry name o ctx ask).result host).1 es) ∧
    ((∃ f, ((perform registry name o ctx ask).result host).1 = .error (.failed f)) ↔
      Escapes registry name o ctx ask host) := by
  refine ⟨perform_accounts hask registry name o ctx host, ?_⟩
  have hbuiltin : ∀ {r h}, UnderWay registry name o ctx host r h → r.action ∈ Action.builtins := by
    intro r h u
    have haction := u.action.symm.trans hn
    cases haction
    exact hb
  constructor
  · intro hfails
    obtain ⟨r, h, u⟩ | ⟨m, hm⟩ | hnone | ⟨a, e, k, ha, hq⟩ | ⟨a, text, config, m, k, ha, hq, hp⟩ :=
      perform_cases registry name o ctx host
    · obtain ⟨w, m, hw⟩ := proceed_ok r ctx.daemon ask h
      rcases (u.fails_iff (hbuiltin u) ho hw).1 hfails with hdeep | ⟨⟨stored, n, hs⟩, htext⟩
      · obtain ⟨output, hout, hd⟩ := u.tooDeep_output ho hdeep
        exact .tooDeep u hw hout hd
      · exact .unmeasured u hw hs htext
    · rw [hm] at hn
      cases hn
    · rw [hnone] at hn
      cases hn
    · obtain ⟨f, hf⟩ := hfails
      rw [result_perform_unacquired ha hq] at hf
      cases hf
    · exact .unreadable hq (Provider.ofConfig_error.1 ⟨m, hp⟩)
  · intro hescapes
    cases hescapes with
    | unreadable ha hc =>
      obtain ⟨m, hm⟩ := Provider.ofConfig_error.2 hc
      exact ⟨_, congrArg Prod.fst (result_perform_unprovided hn ha hm ask)⟩
    | unmeasured u hw hs ht => exact (u.fails_iff (hbuiltin u) ho hw).2 (.inr ⟨⟨_, _, hs⟩, ht⟩)
    | tooDeep u hw hout hd =>
      refine (u.fails_iff (hbuiltin u) ho hw).2 (.inl (Nat.le_trans hd ?_))
      rw [outcome_eq_success.2 hout]
      exact nesting_output _ _ _

end

def servedHost (clipboard config : Bytes) : Host where
  now := ⟨0⟩
  agent := .serving [("/clipboard", [.reply 200 clipboard]), ("/config", [.reply 200 config])]
  target := .nowhere

/-- Where both documents are empty objects, a run tells of the missing text once and ends with 1. -/
theorem fails_only_by_escape_object :
    let registry : Registry := ⟨Action.builtins⟩
    let ctx := { smallContext with input := none }
    let host := servedHost [123, 125] [123, 125]
    registry.lookUp (.str "sum") = .ok (some Action.summary) ∧
    ∃ es, ((perform registry (.str "sum") {} ctx Gate.askTerminal).result host).2.trace =
        host.trace ++ es ∧
      Accounted (.ok 1) es ∧ .complained "Error: Clipboard is empty\n" ∈ es ∧
      ¬ Escapes registry (.str "sum") {} ctx Gate.askTerminal host := by
  intro registry ctx host
  have hcode : ((perform registry (.str "sum") {} ctx Gate.askTerminal).result host).1 = .ok 1 :=
    rfl
  have htold : ((perform registry (.str "sum") {} ctx Gate.askTerminal).result host).2.trace[2]? =
      some (.complained "Error: Clipboard is empty\n") := rfl
  obtain ⟨⟨es, hes, haccounted⟩, hescapes⟩ :=
    @fails_only_by_escape registry (.str "sum") {} ctx Gate.askTerminal host _ _ rfl
      List.mem_cons_self ⟨by decide, fun _ h => (by cases h), .inl rfl⟩ Gate.askTerminal_errorless
  rw [hcode] at haccounted
  rw [hes] at htold
  refine ⟨rfl, es, hes, haccounted, List.mem_of_getElem? htold, fun h => ?_⟩
  obtain ⟨f, hf⟩ := hescapes.2 h
  rw [hcode] at hf
  cases hf

/-- A configuration that is an empty array ends a run with a failure. -/
theorem array_config_escapes :
    ((perform ⟨Action.builtins⟩ (.str "summary") {} { smallContext with input := none }).result
      (servedHost [123, 34, 116, 101, 120, 116, 34, 58, 34, 104, 105, 34, 125] [91, 93])).1 =
      .error (.failed (.misuse (.noMember "list" "get"))) := rfl

end Run
end ClipActions
