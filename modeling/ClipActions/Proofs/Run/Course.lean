import ClipActions.Proofs.Agent.Requests
import ClipActions.Proofs.Gate.Decision
import ClipActions.Proofs.History.Append
import ClipActions.Proofs.Model.Calls
import ClipActions.Run

/-!
The course of a run. A run is under way once its action is resolved and its text and configuration
are in hand; then the gate decides whether anything else is done, and at the end the run is
concluded in one way whatever came before.
-/
namespace ClipActions.Run

open Host (Frame)

open Job (Keeps Halts Hereditary)

variable {P : Effect → Prop} {R : Host → Host → Prop} {S : ∀ {α : Type}, Job α → Prop}
  {registry : Registry} {name : Json} {o : Options} {ctx : Context} {ask : Gate.Asker}
  {host h k : Host} {r : Run}

section

variable [Runtime]

/-- A run that is under way on a host `h`, to which acquiring what it needs has led from `host`. -/
structure UnderWay (registry : Registry) (name : Json) (o : Options) (ctx : Context) (host : Host)
    (r : Run) (h : Host) : Prop where
  action : registry.lookUp name = .ok (some r.action)
  options : r.options = o
  provenance : r.provenance = .of r.action o ctx
  acquired : (acquire o ctx).result host = (.ok (r.text, r.config), h)
  provider : Provider.ofConfig (.ofJson r.config) = .ok r.provider

def request (r : Run) (daemon : Bool) (ask : Gate.Asker) : Gate.Request :=
  { yes := r.options.yes, daemon, ask }

def prepare (r : Run) : Job Model.Client := do
  if let some message := present? r.action.progress then Job.say (message ++ "\n")
  Model.Client.make r.provider

/-- What comes of the work: its output is delivered, if it has one. -/
def settleWork (r : Run) : Except Halt Work → Job Work
  | .error e => return { ending := .error e }
  | .ok w => match w.ending with
    | .error _ => return w
    | .ok output => do
      match ← Job.settle (r.deliver output) with
      | .ok () => return w
      | .error e => return { w with ending := .error e }

def afterGate (r : Run) : Job Work := Job.settle (r.prepare >>= r.work) >>= r.settleWork

def conclude (r : Run) (file : Path) (w : Work) : Job Int := do
  r.keep file w.latency w.outcome
  match w.ending with
  | .error (.interrupted i) => throw (.interrupted i)
  | _ => match w.outcome with
    | .success _ => return 0
    | .failure error =>
      reportError error
      return 1

/-- What the log is told of a run whose record has been stored, or the user of one whose record has
not. -/
def tell (r : Run) (file : Path) (w : Work) (stored : Except Failure History.Entry) : Job Unit :=
  match stored with
  | .ok e => r.logRun ((Value.atName? e "id").getD .null) w.latency w.outcome
  | .error .tooDeepToWrite => Job.fail .tooDeepToWrite
  | .error f =>
    Job.warn ("Failed to write history record: " ++ f.message) "history_write_failed"
      [("history_file", .path file), ("error_type", .str f.kind)]

def Work.answer (w : Work) : Job Int := do
  match w.ending with
  | .error (.interrupted i) => throw (.interrupted i)
  | _ => match w.outcome with
    | .success _ => return 0
    | .failure error =>
      reportError error
      return 1

/-- What is told of a run once it has been tried to store its record. -/
def report (r : Run) (file : Path) (w : Work) (stored : Except Failure History.Entry) : Job Int :=
  r.tell file w stored >>= fun _ => w.answer

theorem conclude_eq (r : Run) (file : Path) (w : Work) : r.conclude file w =
    Job.attempt (History.append file (entry (r.record w.latency w.outcome))) >>=
      r.report file w := by
  unfold conclude keep
  rw [bind_assoc]
  rfl

theorem result_perform (u : UnderWay registry name o ctx host r h) (ask : Gate.Asker) :
    (perform registry name o ctx ask).result host = (r.finish ctx ask).result h := by
  have hr : Run.mk r.action o (.of r.action o ctx) r.provider r.text r.config = r := by
    rw [← u.provenance, ← u.options]
  have hacquired : (Job.attempt (acquire o ctx)).result host =
      (.ok (.ok (r.text, r.config)), h) := by
    rw [Job.result_attempt, u.acquired]
  unfold perform
  rw [u.action, Job.result_bind_ok (Job.result_check_ok _ _)]
  dsimp only
  unfold start
  rw [Job.result_bind_ok hacquired]
  dsimp only
  rw [u.provider, Job.result_bind_ok (Job.result_check_ok _ _), hr]

/-- What a run is that is under way, and on which host, is given by what it is asked to be. -/
theorem UnderWay.unique {q : Run} (u : UnderWay registry name o ctx host r h)
    (v : UnderWay registry name o ctx host q k) : r = q ∧ h = k := by
  obtain ⟨a, s, c, p, t, j⟩ := r
  obtain ⟨b, s', c', p', t', j'⟩ := q
  have haction : a = b := by
    have := u.action.symm.trans v.action
    cases this
    rfl
  obtain rfl : s = s' := u.options.trans v.options.symm
  subst haction
  obtain rfl : c = c' := u.provenance.trans v.provenance.symm
  have hacquired := u.acquired.symm.trans v.acquired
  cases hacquired
  have hprovider := u.provider.symm.trans v.provider
  cases hprovider
  exact ⟨rfl, rfl⟩

theorem result_finish (r : Run) (ctx : Context) (ask : Gate.Asker) (h : Host) :
    (r.finish ctx ask).result h =
      (r.proceed ctx.daemon ask >>= r.conclude ctx.historyFile).result h := rfl

/-- What does not pass the gate has no other end than the gate's. -/
theorem result_proceed (r : Run) (daemon : Bool) (ask : Gate.Asker) (h : Host) :
    (r.proceed daemon ask).result h =
      match (Gate.pass r.config (r.request daemon ask)).result h with
      | (.error e, k) => (.ok { ending := .error e }, k)
      | (.ok (), k) => r.afterGate.result k := by
  have hpass : (r.enter daemon ask >>= r.work).result h =
      match (Gate.pass r.config (r.request daemon ask)).result h with
      | (.error e, k) => (.error e, k)
      | (.ok (), k) => (r.prepare >>= r.work).result k := by
    have henter : r.enter daemon ask >>= r.work =
        Gate.pass r.config (r.request daemon ask) >>= fun _ => r.prepare >>= r.work := by
      rw [← bind_assoc]
      rfl
    rw [henter, Job.result_bind]
    rcases (Gate.pass r.config (r.request daemon ask)).result h with ⟨_ | _, k⟩ <;> rfl
  have hsettle := Job.result_settle (r.enter daemon ask >>= r.work) h
  unfold proceed
  rw [Job.result_bind_ok hsettle, hpass]
  rcases (Gate.pass r.config (r.request daemon ask)).result h with ⟨e | ⟨⟩, k⟩
  · rfl
  · dsimp only
    unfold afterGate
    rw [Job.result_bind_ok (Job.result_settle (r.prepare >>= r.work) k)]
    rfl

/-- The gate decides whether anything else is done. -/
theorem proceed_eq (r : Run) (daemon : Bool) (ask : Gate.Asker) : r.proceed daemon ask =
    Job.settle (Gate.pass r.config (r.request daemon ask)) >>= fun
      | .error e => return { ending := .error e }
      | .ok () => r.afterGate := by
  funext h
  show (r.proceed daemon ask).result h = Job.result _ h
  rw [result_proceed, Job.result_bind_ok (Job.result_settle _ h)]
  rcases (Gate.pass r.config (r.request daemon ask)).result h with ⟨e | ⟨⟩, k⟩ <;> rfl

/-! What acquiring is made of, and what it leaves behind. -/

theorem acquireText_inherits (f : Hereditary P S) {o : Options} {ctx : Context}
    (hi : o.input = none → S (Agent.inputText ctx)) : S (acquireText o ctx) := by
  have hpresent (text : Json) : S (if text.truthy then return text else Job.fail .emptyInput) := by
    split
    · exact f.pure _
    · exact f.fail _
  unfold acquireText
  split
  · exact f.bind (f.pure _) hpresent
  · exact f.bind (hi ‹_›) hpresent

/-- Unless a text is given the clipboard is asked for; the configuration is asked for always. -/
theorem acquire_inherits (f : Hereditary P S) {o : Options} {ctx : Context}
    (hi : o.input = none → S (Agent.inputText ctx)) (hc : S (Agent.config ctx)) :
    S (acquire o ctx) := by
  have htext : S (acquireText o ctx) := acquireText_inherits f hi
  refine f.bind (f.settle htext) fun text => f.bind (f.settle hc) fun config => ?_
  split
  · exact f.pure _
  · exact f.throw _
  · exact f.throw _

theorem acquire_keeps_of (f : Frame P R) {o : Options} {ctx : Context}
    (hi : o.input = none → Keeps R (Agent.inputText ctx))
    (hc : Agent.Told.Of P "GET" "/config" none) : Keeps R (acquire o ctx) :=
  acquire_inherits f.hereditary hi (Agent.config_keeps f hc ctx)

theorem acquire_keeps (f : Frame P R) (t : Agent.Told P) (o : Options) (ctx : Context) :
    Keeps R (acquire o ctx) :=
  acquire_keeps_of f (fun _ => Agent.inputText_keeps f t ctx) (t.of _ _ _)

theorem acquire_extends (o : Options) (ctx : Context) :
    Keeps (Host.Extends fun _ => True) (acquire o ctx) :=
  acquire_keeps (Host.frame_extends _) ⟨fun _ _ _ => trivial, fun _ _ => trivial⟩ o ctx

/-- What is acquired for a run is the text that it acquires and a configuration. -/
theorem text_of_acquired {text config : Json}
    (ha : (acquire o ctx).result host = (.ok (text, config), h)) :
    ((acquireText o ctx).result host).1 = .ok text := by
  obtain ⟨acquired, m, hacquired, ha⟩ := Job.bind_ok ha
  obtain ⟨configured, m', -, ha⟩ := Job.bind_ok ha
  rw [Job.result_settle] at hacquired
  cases acquired with
  | error e => cases configured <;> cases ha
  | ok t =>
    cases configured with
    | error e => cases ha
    | ok c =>
      cases ha
      injection hacquired with hacquired
      injection hacquired

/-- The text of a run counts as present. -/
theorem UnderWay.truthy (u : UnderWay registry name o ctx host r h) : r.text.truthy = true := by
  have hpresent : ∀ (j : Json) (k : Host),
      ((if j.truthy then return j else Job.fail .emptyInput : Job Json).result k).1 = .ok r.text →
        r.text.truthy = true := by
    intro j k hj
    split at hj
    · cases hj
      assumption
    · cases hj
  have htext := text_of_acquired u.acquired
  unfold acquireText at htext
  split at htext
  · exact hpresent _ _ htext
  · rw [Job.result_bind] at htext
    split at htext
    · exact hpresent _ _ htext
    · cases htext

theorem acquireText_halts (o : Options) (ctx : Context) :
    Halts Agent.IsFailure (acquireText o ctx) := by
  have hpresent : ∀ text : Json,
      Halts Agent.IsFailure (if text.truthy then return text else Job.fail .emptyInput) := by
    intro text
    split
    · exact .pure _
    · exact .fail (Agent.isFailure _)
  unfold acquireText
  split
  · exact (Halts.pure _).bind hpresent
  · exact (Agent.inputText_halts ctx).bind hpresent

/-- What cannot be acquired ends in a failure, never in an interruption. -/
theorem acquire_halts (o : Options) (ctx : Context) : Halts Agent.IsFailure (acquire o ctx) := by
  intro host e he
  have hsettle := Job.result_settle (acquireText o ctx) host
  unfold acquire at he
  rw [Job.result_bind_ok hsettle,
    Job.result_bind_ok (Job.result_settle (Agent.config ctx) _)] at he
  have htext := acquireText_halts o ctx host
  generalize ((acquireText o ctx).result host).1 = text at he htext
  have hconfig : ∀ e, ((Agent.config ctx).result ((acquireText o ctx).result host).2).1 = .error e →
      Agent.IsFailure e := Agent.request_halts _
  generalize ((Agent.config ctx).result ((acquireText o ctx).result host).2).1 = config
    at he hconfig
  cases text with
  | error e' =>
    cases he
    exact htext e rfl
  | ok t =>
    cases config with
    | error e' =>
      cases he
      exact hconfig e rfl
    | ok c => cases he

/-! A run that does not get under way. -/

theorem result_perform_misused {m : Misuse} (hn : registry.lookUp name = .error m)
    (ask : Gate.Asker) :
    (perform registry name o ctx ask).result host = (.error (.failed (.misuse m)), host) := by
  unfold perform
  rw [hn, Job.result_bind_error (Job.result_check_error m host)]

theorem result_perform_unknown (hn : registry.lookUp name = .ok none) (ask : Gate.Asker) :
    (perform registry name o ctx ask).result host =
      (do reportUnknown registry name; return 1 : Job Int).result host := by
  unfold perform
  rw [hn, Job.result_bind_ok (Job.result_check_ok _ host)]

theorem result_perform_unacquired {a : Action} {f : Failure}
    (hn : registry.lookUp name = .ok (some a))
    (ha : (acquire o ctx).result host = (.error (.failed f), h)) (ask : Gate.Asker) :
    (perform registry name o ctx ask).result host =
      (do reportError (Secret.redact f.message); return 1 : Job Int).result h := by
  have hacquired : (Job.attempt (acquire o ctx)).result host = (.ok (.error f), h) := by
    rw [Job.result_attempt, ha]
  unfold perform
  rw [hn, Job.result_bind_ok (Job.result_check_ok _ host)]
  dsimp only
  unfold start
  rw [Job.result_bind_ok hacquired]

theorem result_perform_unprovided {a : Action} {text config : Json} {m : Misuse}
    (hn : registry.lookUp name = .ok (some a))
    (ha : (acquire o ctx).result host = (.ok (text, config), h))
    (hp : Provider.ofConfig (.ofJson config) = .error m) (ask : Gate.Asker) :
    (perform registry name o ctx ask).result host = (.error (.failed (.misuse m)), h) := by
  have hacquired : (Job.attempt (acquire o ctx)).result host = (.ok (.ok (text, config)), h) := by
    rw [Job.result_attempt, ha]
  unfold perform
  rw [hn, Job.result_bind_ok (Job.result_check_ok _ host)]
  dsimp only
  unfold start
  rw [Job.result_bind_ok hacquired]
  dsimp only
  rw [hp, Job.result_bind_error (Job.result_check_error m h)]

/-- A run gets under way, or its name, its text or configuration, or its provider stands in the
way. -/
theorem perform_cases (registry : Registry) (name : Json) (o : Options) (ctx : Context)
    (host : Host) :
    (∃ r h, UnderWay registry name o ctx host r h) ∨
    (∃ m, registry.lookUp name = .error m) ∨
    registry.lookUp name = .ok none ∨
    (∃ a f h, registry.lookUp name = .ok (some a) ∧
      (acquire o ctx).result host = (.error (.failed f), h)) ∨
    ∃ a text config m h, registry.lookUp name = .ok (some a) ∧
      (acquire o ctx).result host = (.ok (text, config), h) ∧
      Provider.ofConfig (.ofJson config) = .error m := by
  cases hn : registry.lookUp name with
  | error m => exact .inr (.inl ⟨m, rfl⟩)
  | ok found =>
    cases found with
    | none => exact .inr (.inr (.inl rfl))
    | some a =>
      cases ha : (acquire o ctx).result host with
      | mk result h =>
        cases result with
        | error e =>
          obtain ⟨f, rfl⟩ := acquire_halts o ctx host e (by rw [ha])
          exact .inr (.inr (.inr (.inl ⟨a, f, h, rfl, rfl⟩)))
        | ok acquired =>
          obtain ⟨text, config⟩ := acquired
          cases hp : Provider.ofConfig (.ofJson config) with
          | error m => exact .inr (.inr (.inr (.inr ⟨a, text, config, m, h, rfl, rfl, hp⟩)))
          | ok provider =>
            exact .inl ⟨⟨a, o, .of a o ctx, provider, text, config⟩, h, hn, rfl, rfl, ha, hp⟩

theorem reportUnknown_inherits (f : Hereditary P S) (hc : ∀ t, P (.complained t))
    (hl : ∀ x : Effect, x.Logs "action_unknown" → P x) (registry : Registry) (name : Json) :
    S (reportUnknown registry name) :=
  f.bind (f.log (.of_names rfl) hl) fun _ => f.bind (f.emit (hc _)) fun _ => f.emit (hc _)

/-! What the stages of a run are made of. -/

theorem prepare_inherits (f : Hereditary P S) (hp : ∀ t, P (.printed t))
    (hb : S (Model.backend r.provider)) : S r.prepare := by
  have hmake : S (Model.Client.make r.provider) := Model.make_inherits f hb
  unfold prepare
  split
  · exact f.bind (f.say (hp _)) fun _ => hmake
  · exact hmake

theorem work_inherits (f : Hereditary P S) (t : Model.Told P) {c : Model.Client}
    (hc : ∀ request, S (c.backend.complete request)) : S (r.work c) :=
  f.bind f.readTimer fun start =>
    f.bind (f.settle (Model.runProgram_inherits hc f t _)) fun _ =>
      f.bind (f.since start) fun _ => f.pure _

theorem printOutput_inherits (f : Hereditary P S) (hp : ∀ t, P (.printed t)) (a : Action)
    (output : Json) : S (printOutput a output) :=
  f.bind (f.say (hp _)) fun _ => f.bind (f.say (hp _)) fun _ => f.say (hp _)

theorem deliver_inherits (f : Hereditary P S) (hp : ∀ t, P (.printed t)) {output : Json}
    (hc : r.options.copy = true → P (.copied output)) : S (r.deliver output) := by
  refine f.bind (printOutput_inherits f hp _ _) fun _ => ?_
  split
  · rename_i h
    exact f.bind (f.copy (hc h)) fun _ => f.say (hp _)
  · exact f.pure _

theorem prepare_backend {c : Model.Client} (hc : r.prepare.result h = (.ok c, k)) :
    ∃ m, (Model.backend r.provider).result m = (.ok c.backend, k) := by
  unfold prepare at hc
  split at hc
  · obtain ⟨_, m, -, hc⟩ := Job.bind_ok hc
    exact ⟨m, (Model.make_backend hc).2⟩
  · exact ⟨h, (Model.make_backend hc).2⟩

/-- The backend of a provider, however it is opened and asked, keeps a frame. -/
structure Serves (R : Host → Host → Prop) (p : Provider) : Prop where
  opening : Keeps R (Model.backend p)
  complete : ∀ h b k, (Model.backend p).result h = (.ok b, k) →
    ∀ request, Keeps R (b.complete request)

theorem serves (f : Frame P R) (t : Model.Told P)
    (hp : ∀ operation arguments, P (.called operation arguments)) (p : Provider) : Serves R p :=
  ⟨Model.backend_inherits f.hereditary hp p,
    fun _ _ _ hb => Model.backend_complete hb f.hereditary t hp⟩

theorem settleWork_inherits (f : Hereditary P S) (hp : ∀ t, P (.printed t))
    (hc : ∀ output, r.options.copy = true → P (.copied output)) (result : Except Halt Work) :
    S (r.settleWork result) := by
  unfold settleWork
  split
  · exact f.pure _
  · split
    · exact f.pure _
    · refine f.bind (f.settle (deliver_inherits f hp (hc _))) fun delivered => ?_
      cases delivered with
      | error e => exact f.pure _
      | ok u => exact f.pure _

/-- Behind the gate a run prints, asks the model, and copies its output if that is asked for. -/
theorem afterGate_inherits (f : Hereditary P S) (hp : ∀ t, P (.printed t)) (t : Model.Told P)
    (hc : ∀ output, r.options.copy = true → P (.copied output))
    (hm : ∀ operation arguments, P (.called operation arguments)) : S r.afterGate := by
  have hbackend : S (Model.backend r.provider) := Model.backend_inherits f hm _
  have hwork : S (r.prepare >>= r.work) := by
    refine f.bind_of_ok (prepare_inherits f hp hbackend) fun h c k hck => ?_
    obtain ⟨m, hb⟩ := prepare_backend hck
    exact work_inherits f t (Model.backend_complete hb f t hm)
  exact f.bind (f.settle hwork) (settleWork_inherits f hp hc)

/-- A run from the gate to the delivery is made of its stages. -/
theorem proceed_inherits (f : Hereditary P S) (hp : ∀ t, P (.printed t)) (t : Model.Told P)
    (hd : ∀ e : Effect, e.Notes "safe_mode_decision" → P e)
    (hask : ∀ p, S (ask (Gate.question p)))
    (hc : ∀ output, r.options.copy = true → P (.copied output))
    (hm : ∀ operation arguments, P (.called operation arguments)) (daemon : Bool) :
    S (r.proceed daemon ask) := by
  have hpass : S (Gate.pass r.config (r.request daemon ask)) := Gate.pass_inherits f hd hask
  rw [proceed_eq]
  refine f.bind (f.settle hpass) fun passed => ?_
  cases passed with
  | error e => exact f.pure _
  | ok u => exact afterGate_inherits f hp t hc hm

/-- What the event of a run says of an error: nothing, or the error that the run has ended with. -/
def Outcome.Says (outcome : Outcome) (v : Data) : Prop :=
  v = .null ∨ ∃ error, outcome = .failure error ∧ v = .str error

theorem logRun_inherits (f : Hereditary P S) (id : Data) (latency : Int) (outcome : Outcome)
    (hl : ∀ x : Effect, x.Tells "action_run" outcome.Says → P x) :
    S (r.logRun id latency outcome) := by
  have hfields : ∀ (names : List (Text × Data)) (v : Data), outcome.Says v →
      decide (∀ n ∈ names.map Prod.fst, n ≠ "error" ∧ n ≠ "message") = true →
      ∀ x ∈ names ++ [(("error", v) : Text × Data)], x.1 = "error" ∨ x.1 = "message" →
        outcome.Says x.2 := by
    intro names v hv hnames x hx he
    rcases List.mem_append.1 hx with hx | hx
    · exact (Log.Event.silent_of_names hnames x hx he).elim
    · obtain rfl := List.mem_singleton.1 hx
      exact hv
  refine f.bind (f.check _) fun _ => ?_
  cases outcome with
  | success output =>
    exact f.bind (f.check _) fun _ => f.tell (.of_names rfl) (hfields [_, _, _, _, _, _, _, _, _, _, _]
      _ (.inl rfl) rfl) hl
  | failure error =>
    exact f.bind (f.check _) fun _ => f.tell (.of_names rfl) (hfields [_, _, _, _, _, _, _, _, _, _, _]
      _ (.inr ⟨error, rfl, rfl⟩) rfl) hl

theorem tell_inherits (f : Hereditary P S) (file : Path) (w : Work)
    (stored : Except Failure History.Entry)
    (hw : ∀ t, P (.complained ("Warning: " ++ Secret.redact t ++ "\n")))
    (hr : ∀ x : Effect, x.Tells "action_run" w.outcome.Says → P x)
    (hf : ∀ x : Effect, x.Tells "history_write_failed" Redacted → P x) :
    S (r.tell file w stored) := by
  unfold tell
  split
  · exact logRun_inherits f _ _ _ hr
  · exact f.fail _
  · exact f.warn _ (by decide) rfl rfl (hw _) hf

theorem report_inherits (f : Hereditary P S) (file : Path) (w : Work)
    (stored : Except Failure History.Entry)
    (hw : ∀ t, P (.complained ("Warning: " ++ Secret.redact t ++ "\n")))
    (he : ∀ error, w.outcome = .failure error → P (.complained ("Error: " ++ error ++ "\n")))
    (hr : ∀ x : Effect, x.Tells "action_run" w.outcome.Says → P x)
    (hf : ∀ x : Effect, x.Tells "history_write_failed" Redacted → P x) :
    S (r.report file w stored) := by
  refine f.bind (tell_inherits f file w stored hw hr hf) fun _ => ?_
  unfold Work.answer
  split
  · exact f.throw _
  · cases ho : w.outcome with
    | success output => exact f.pure _
    | failure error => exact f.bind (f.emit (he error ho)) fun _ => f.pure _

/-- The conclusion of a run is to store its record and to tell of it. -/
theorem conclude_inherits (f : Hereditary P S) (file : Path) (w : Work)
    (ha : ∀ e, S (History.append file e))
    (hw : ∀ t, P (.complained ("Warning: " ++ Secret.redact t ++ "\n")))
    (he : ∀ error, w.outcome = .failure error → P (.complained ("Error: " ++ error ++ "\n")))
    (hr : ∀ x : Effect, x.Tells "action_run" w.outcome.Says → P x)
    (hf : ∀ x : Effect, x.Tells "history_write_failed" Redacted → P x) :
    S (r.conclude file w) := by
  rw [conclude_eq]
  exact f.bind (f.attempt (ha _)) fun stored => report_inherits f file w stored hw he hr hf

/-- The conclusion of a run tells of it on the standard error and in the log. -/
theorem conclude_adds (file : Path) (w : Work)
    (hw : ∀ t, P (.complained ("Warning: " ++ Secret.redact t ++ "\n")))
    (he : ∀ error, w.outcome = .failure error → P (.complained ("Error: " ++ error ++ "\n")))
    (hr : ∀ x : Effect, x.Tells "action_run" w.outcome.Says → P x)
    (hf : ∀ x : Effect, x.Tells "history_write_failed" Redacted → P x) :
    Keeps (Host.Adds P) (r.conclude file w) :=
  conclude_inherits (Host.frame_adds P).hereditary file w (History.append_adds file) hw he hr hf

end

/-! A small run, on which statements can be tried. -/

def echo : Action where
  id := "echo"
  aliases := ["e"]
  description := "Gives the text back"
  title := "Echo"
  run task := .done task.text

def smallContext : Context where
  daemon := false
  trigger := none
  input := some (Text.ofString "hi")
  historyFile := "h.jsonl"
  pluginDir := "actions"
  logDir := "."
  socket := "agent.sock"
  logFile := none

/-- A host with an agent whose configuration is empty, and where a halt may stop each opening of a
service. -/
def smallHost (halt : Option Halt) : Host where
  now := ⟨0⟩
  agent := .serving [("/config", [.reply 200 [123, 125]])]
  openHalt? _ _ := halt
  target := .nowhere

/-- The small run once it is under way. -/
def smallRun : Run where
  action := echo
  options := {}
  provenance := .of echo {} smallContext
  provider := { type := [], model := [] }
  text := .str "hi"
  config := .obj []

theorem smallRun_underWay (halt : Option Halt) :
    UnderWay ⟨[echo]⟩ (.str "e") {} smallContext (smallHost halt) smallRun
      ((acquire {} smallContext).result (smallHost halt)).2 where
  action := rfl
  options := rfl
  provenance := rfl
  acquired := rfl
  provider := rfl

theorem smallHost_writable (halt : Option Halt) :
    History.Writable smallContext.historyFile "h.jsonl" (smallHost halt).disk := by
  have hthere : (smallHost halt).disk.makeWithin smallContext.historyFile.parent = .ok {} := rfl
  have hmade : (smallHost halt).disk.makeDirectory smallContext.historyFile.parent =
      ({}, none) := by
    unfold Disk.makeDirectory
    exact Disk.makeAll_of_ok hthere
  refine ⟨?_, ?_, rfl⟩
  · rw [hmade]
  · rw [hmade]
    rfl

theorem smallHost_logOpen (halt : Option Halt) : (smallHost halt).LogOpen :=
  fun _ hp => by cases hp

end ClipActions.Run
