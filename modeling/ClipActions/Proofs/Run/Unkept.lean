import ClipActions.Proofs.History.Refusal
import ClipActions.Proofs.Host.Blind
import ClipActions.Proofs.Job.Accounts
import ClipActions.Proofs.Run.Audit
import ClipActions.Proofs.Run.Passage

/-!
Runs whose record is not kept. Until its record is to be stored a run does not look at the disk, so it
comes to the same on every disk. From there on it is told of in one of two ways, which differ in what
they say of the record and in nothing else: the run ends as it would have ended.
-/
namespace ClipActions

open History (stamped)

open Host (Adds Beside)

open Job (Blind Keeps)

/-- An effect that neither reports an error nor tells what has become of a record. -/
structure Effect.Early (x : Effect) : Prop where
  errorless : x.Errorless
  unkept : ¬ x.Logs "history_write_failed"
  unstored : ¬ x.Logs "action_run"

theorem Effect.Logs.early {name : Text} {x : Effect} (h : x.Logs name)
    (hn : name ≠ "history_write_failed" ∧ name ≠ "action_run") : x.Early := by
  refine ⟨h.errorless, fun hx => hn.1 ?_, fun hx => hn.2 ?_⟩
  · exact Option.some.inj (h.symm.trans hx)
  · exact Option.some.inj (h.symm.trans hx)

/-- An effect that is neither told to the user nor logged. -/
theorem Effect.early_of_event {x : Effect} (he : x.event? = none) (hx : x.Errorless) : x.Early := by
  refine ⟨hx, fun h => ?_, fun h => ?_⟩
  · rw [Logs, he] at h
    cases h
  · rw [Logs, he] at h
    cases h

/-! What is early in a run. -/

theorem Agent.told_early : Agent.Told Effect.Early where
  request _ _ _ := Effect.early_of_event rfl rfl
  failure _ hx := hx.early (by decide)

theorem Model.told_early : Model.Told Effect.Early where
  service _ hx := hx.early (by decide)
  request _ hx := hx.logs.early (by decide)
  error _ hx := hx.early (by decide)
  response _ hx := hx.logs.early (by decide)

/-- Somebody is asked who does not look at the disk, reports no error and says nothing of records. -/
structure Gate.Unaware (paths : Path → Prop) (ask : Gate.Asker) : Prop where
  blind : ∀ p, Blind paths (ask (Gate.question p))
  early : ∀ p, Keeps (Adds Effect.Early) (ask (Gate.question p))

theorem Gate.askTerminal_unaware (paths : Path → Prop) : Gate.Unaware paths Gate.askTerminal where
  blind _ := .askTerminal _
  early p := by
    have f := Host.frame_adds Effect.Early
    have hasked : Effect.Early (.complained (Gate.question p ++ " [y/N] ")) :=
      Effect.early_of_event rfl rfl
    exact askTerminal_inherits f.hereditary f.readLine hasked

namespace Run

variable {registry : Registry} {name : Json} {o : Options} {ctx ctx' : Context} {ask : Gate.Asker}
  {host host' h k m : Host} {r : Run} {w : Work} {paths : Path → Prop}

section

variable [Runtime]

/-! Up to its record, a run does not look at the disk. -/

theorem acquire_blind (hs : paths ctx.socket) (o : Options) : Blind paths (acquire o ctx) :=
  have f := Blind.hereditary paths
  acquire_inherits f (fun _ => Agent.inputText_inherits f fun _ => .request hs _ _ _)
    (.request hs _ _ _)

theorem proceed_blind (hask : Gate.Unaware paths ask) (r : Run) (daemon : Bool) :
    Blind paths (r.proceed daemon ask) :=
  proceed_inherits (Blind.hereditary paths) (fun _ => trivial) Model.told_any (fun _ _ => trivial)
    hask.blind (fun _ _ => trivial) (fun _ _ => trivial) daemon

theorem acquire_early (o : Options) (ctx : Context) : Keeps (Adds Effect.Early) (acquire o ctx) :=
  acquire_keeps (Host.frame_adds _) Agent.told_early o ctx

theorem proceed_early (hask : Gate.Unaware paths ask) (r : Run) (daemon : Bool) :
    Keeps (Adds Effect.Early) (r.proceed daemon ask) :=
  proceed_inherits (Host.frame_adds _).hereditary (fun _ => Effect.early_of_event rfl rfl)
    Model.told_early (fun _ hx => hx.logs.early (by decide)) hask.early
    (fun _ _ => Effect.early_of_event rfl rfl) (fun _ _ => Effect.early_of_event rfl rfl) daemon

/-- Where no socket is found, what a run needs is not acquired, and nothing is done. -/
theorem acquire_unreached (hs : Agent.there ctx.socket host ≠ .ok true) (o : Options) :
    ∃ e, ∀ k, Agent.there ctx.socket k = Agent.there ctx.socket host →
      (acquire o ctx).result k = (.error e, k) := by
  obtain ⟨f, hrequest⟩ := Agent.request_unreached hs
  have htext : ∃ text, ∀ k, Agent.there ctx.socket k = Agent.there ctx.socket host →
      (acquireText o ctx).result k = (text, k) := by
    have hgiven : ∀ (j : Json) (k : Host), (do
        let text ← pure j
        if text.truthy then return text else Job.fail .emptyInput : Job Json).result k =
          (if j.truthy then .ok j else .error (.failed .emptyInput), k) := by
      intro j k
      rw [pure_bind]
      split <;> rfl
    unfold acquireText Agent.inputText
    cases o.input with
    | some j => exact ⟨_, fun k _ => hgiven j k⟩
    | none =>
      cases ctx.input with
      | some t => exact ⟨_, fun k _ => hgiven (.str t) k⟩
      | none =>
        refine ⟨.error (.failed f), fun k hk => ?_⟩
        have hclipboard := hrequest "GET" "/clipboard" none k hk
        exact Job.result_bind_error (Job.result_bind_error hclipboard _) _
  obtain ⟨text, htext⟩ := htext
  have hacquire : ∀ k, Agent.there ctx.socket k = Agent.there ctx.socket host →
      (acquire o ctx).result k = (match text with
        | .ok _ => throw (.failed f)
        | .error e => throw e : Job (Json × Json)).result k := by
    intro k hk
    unfold acquire
    rw [Job.result_bind_ok (Job.result_settle _ k), htext k hk,
      Job.result_bind_ok (Job.result_settle _ k), Agent.config, hrequest _ _ _ k hk]
    cases text <;> rfl
  cases text with
  | ok j => exact ⟨_, hacquire⟩
  | error e => exact ⟨_, hacquire⟩

/-- Where a run may take place besides: its history lies elsewhere, and there is something else on the
disk. The socket of the agent is found alike. -/
structure Elsewhere (ctx : Context) (host : Host) (ctx' : Context) (host' : Host) : Prop where
  context : ctx' = { ctx with historyFile := ctx'.historyFile }
  rest : host' = { host with disk := host'.disk }
  there : Agent.there ctx.socket host' = Agent.there ctx.socket host

/-- Elsewhere the same is acquired, or the same stands in the way. What is acquired leaves hosts beside
each other. -/
theorem acquire_elsewhere (he : Elsewhere ctx host ctx' host') (o : Options) :
    ∃ acquired h k, (acquire o ctx).result host = (acquired, h) ∧
      (acquire o ctx').result host' = (acquired, k) ∧ k.trace = h.trace ∧
      ∀ a, acquired = .ok a → Beside (· = ctx.socket) h k := by
  have hsame : acquire o ctx' = acquire o ctx := by rw [he.context]; rfl
  rw [hsame]
  by_cases hreached : Agent.there ctx.socket host = .ok true
  · have hblind : Blind (· = ctx.socket) (acquire o ctx) := by
      refine acquire_blind ?_ o
      rfl
    have hbeside := Agent.beside_of_there he.rest hreached (he.there.trans hreached)
    obtain ⟨hend, hleft⟩ := hblind host host' hbeside
    exact ⟨_, ((acquire o ctx).result host).2, ((acquire o ctx).result host').2, rfl,
      Prod.ext hend rfl, hleft.trace, fun _ _ => hleft⟩
  · obtain ⟨e, hstopped⟩ := acquire_unreached hreached o
    have hsame : host'.trace = host.trace := by rw [he.rest]
    exact ⟨_, _, _, hstopped host rfl, hstopped host' he.there, hsame, fun a ha => by cases ha⟩

/-- A run comes to a work: it gets under way, and all is done but to keep its record. -/
structure ComesTo (registry : Registry) (name : Json) (o : Options) (ctx : Context)
    (ask : Gate.Asker) (host : Host) (r : Run) (w : Work) (k : Host) : Prop where
  underWay : ∃ h, UnderWay registry name o ctx host r h ∧
    (r.proceed ctx.daemon ask).result h = (.ok w, k)

end

namespace ComesTo

variable [Runtime]

/-- Whatever name is known, text acquired and configuration at hand, something comes of the run. -/
theorem of_acquired {a : Action} {text config : Json} (hn : registry.lookUp name = .ok (some a))
    (ha : (acquire o ctx).result host = (.ok (text, config), h)) (hc : Provider.Configured config) :
    ∃ r w k, ComesTo registry name o ctx ask host r w k := by
  obtain ⟨provider, hp⟩ := Provider.ofConfig_ok hc
  have u : UnderWay registry name o ctx host ⟨a, o, .of a o ctx, provider, text, config⟩ h :=
    ⟨hn, rfl, rfl, ha, hp⟩
  obtain ⟨w, k, hw⟩ := proceed_ok ⟨a, o, .of a o ctx, provider, text, config⟩ ctx.daemon ask h
  exact ⟨_, w, k, h, u, hw⟩

theorem early (hc : ComesTo registry name o ctx ask host r w k) (hask : Gate.Unaware paths ask) :
    Adds Effect.Early host k := by
  obtain ⟨h, u, hw⟩ := hc
  exact ((acquire_early o ctx).after u.acquired).trans ((proceed_early hask r _).after hw)

/-- Elsewhere a run comes to the same work. -/
theorem elsewhere (hc : ComesTo registry name o ctx ask host r w k)
    (he : Elsewhere ctx host ctx' host') (hask : Gate.Unaware (· = ctx.socket) ask) :
    ∃ m, ComesTo registry name o ctx' ask host' r w m ∧ m.trace = k.trace := by
  obtain ⟨h, u, hw⟩ := hc
  obtain ⟨acquired, h', n, hq, hq', -, hbeside⟩ := acquire_elsewhere he o
  obtain ⟨rfl, rfl⟩ := Prod.mk.inj (hq.symm.trans u.acquired)
  obtain ⟨hend, hleft⟩ := proceed_blind hask r ctx.daemon _ n (hbeside _ rfl)
  rw [hw] at hend hleft
  have u' : UnderWay registry name o ctx' host' r n := by
    refine { u with acquired := hq', provenance := u.provenance.trans ?_ }
    rw [he.context]
    rfl
  have hdaemon : ctx'.daemon = ctx.daemon := by rw [he.context]
  refine ⟨((r.proceed ctx.daemon ask).result n).2, ⟨n, u', ?_⟩, hleft.trace⟩
  rw [hdaemon]
  exact Prod.ext hend rfl

/-- The run that comes to a work is concluded behind the storing of its record, however that ends. -/
theorem result (hc : ComesTo registry name o ctx ask host r w k) :
    (perform registry name o ctx ask).result host =
      (Job.attempt (History.append ctx.historyFile (entry (r.record w.latency w.outcome))) >>=
        r.report ctx.historyFile w).result k := by
  obtain ⟨h, u, hw⟩ := hc
  rw [result_perform u, result_finish, Job.result_bind_ok hw, conclude_eq]

end ComesTo

section

variable [Runtime]

/-- A run that comes to no work ends the same elsewhere. -/
theorem perform_elsewhere (he : Elsewhere ctx host ctx' host')
    (hc : ¬ ∃ r w k, ComesTo registry name o ctx ask host r w k) :
    ((perform registry name o ctx' ask).result host').1 =
        ((perform registry name o ctx ask).result host).1 ∧
      ((perform registry name o ctx' ask).result host').2.trace =
        ((perform registry name o ctx ask).result host).2.trace := by
  have hsame : host'.trace = host.trace := by rw [he.rest]
  obtain ⟨acquired, h, k, hq, hq', htrace, -⟩ := acquire_elsewhere he o
  obtain ⟨r, m, u⟩ | ⟨e, hn⟩ | hn | ⟨a, f, m, hn, ha⟩ | ⟨a, text, config, e, m, hn, ha, hp⟩ :=
    perform_cases registry name o ctx host
  · obtain ⟨w, n, hw⟩ := proceed_ok r ctx.daemon ask m
    exact absurd ⟨r, w, n, m, u, hw⟩ hc
  · rw [result_perform_misused hn, result_perform_misused hn]
    exact ⟨rfl, hsame⟩
  · have hreport : Blind (fun _ => False) (do reportUnknown registry name; return (1 : Int)) :=
      have f := Blind.hereditary fun _ => False
      f.bind (reportUnknown_inherits f (fun _ => trivial) (fun _ _ => trivial) _ _) fun _ => f.pure _
    obtain ⟨hend, hleft⟩ := hreport host host' ⟨he.rest, fun _ _ hp => hp.elim⟩
    rw [result_perform_unknown hn, result_perform_unknown hn]
    exact ⟨hend, hleft.trace⟩
  · obtain ⟨rfl, rfl⟩ := Prod.mk.inj (hq.symm.trans ha)
    rw [result_perform_unacquired hn hq, result_perform_unacquired hn hq']
    exact ⟨rfl, congrArg (· ++ _) htrace⟩
  · obtain ⟨rfl, rfl⟩ := Prod.mk.inj (hq.symm.trans ha)
    rw [result_perform_unprovided hn hq hp, result_perform_unprovided hn hq' hp]
    exact ⟨rfl, htrace⟩

end

/-! What becomes of the record. -/

/-- A run that ends is told of in one of two ways. The ends and what is told of them are the same, and
so is all that has been done before. -/
structure Unkept (es : List Effect) (kept lost : Except Halt Int × Host) : Prop where
  ending : lost.1 = kept.1
  told : ∃ run warning failed rest,
    kept.2.trace = es ++ [run] ++ rest ∧ lost.2.trace = es ++ [warning, failed] ++ rest ∧
    run.Logs "action_run" ∧
    (∃ t, warning = .complained ("Warning: " ++ t ++ "\n")) ∧ failed.Logs "history_write_failed" ∧
    (rest = [] ∨ ∃ error, rest = [.complained ("Error: " ++ error ++ "\n")])

/-- An exit code is told of at the end, or not at all. -/
theorem result_answer (w : Work) : ∃ ending rest,
    (rest = [] ∨ ∃ error, rest = [.complained ("Error: " ++ error ++ "\n")]) ∧
    ∀ h, w.answer.result h = (ending, { h with trace := h.trace ++ rest }) := by
  have hnothing : ∀ h : Host, h = { h with trace := h.trace ++ [] } := fun h => by simp
  unfold Work.answer
  rcases w.ending with (f | i) | output
  case error.interrupted => exact ⟨.error (.interrupted i), [], .inl rfl, fun h => congrArg _ (hnothing h)⟩
  all_goals
    cases w.outcome with
    | success output => exact ⟨.ok 0, [], .inl rfl, fun h => congrArg _ (hnothing h)⟩
    | failure error => exact ⟨.ok 1, [_], .inr ⟨error, rfl⟩, fun h => rfl⟩

section

variable [Runtime]

theorem tell_stored (ht : r.Typed w.outcome) (file : Path) (id : Text) (now : Instant) (h : Host) :
    ∃ k run, (r.tell file w (.ok (Value.ofJsonFields
      (stamped (r.record w.latency w.outcome) id now)))).result h = (.ok (), k) ∧
      k.trace = h.trace ++ [run] ∧ run.Logs "action_run" := by
  obtain ⟨hlog, hshallow⟩ := logRun_eq ht w.latency id now
  rw [tell_stamped, hlog]
  obtain ⟨disk, target, run, hresult, hrun⟩ := Job.result_log_plain hshallow (.of_names rfl) h
  exact ⟨_, run, hresult, rfl, hrun⟩

theorem tell_lost {f : Failure} (hf : f ≠ .tooDeepToWrite) (r : Run) (file : Path) (w : Work)
    (h : Host) : ∃ k warning failed, (r.tell file w (.error f)).result h = (.ok (), k) ∧
      k.trace = h.trace ++ [warning, failed] ∧
      (∃ t, warning = .complained ("Warning: " ++ t ++ "\n")) ∧
      failed.Logs "history_write_failed" := by
  let event : Log.Event := {
    name := "history_write_failed", level := Log.Level.warning
    fields := [
      ("message", .str (Secret.redact ("Failed to write history record: " ++ f.message))),
      ("history_file", .path file), ("error_type", .str f.kind)] }
  have hshallow : event.Shallow := .of_nestings rfl
  have hplain : event.Plain := .of_names rfl
  obtain ⟨disk, target, hwarn⟩ := Job.result_warn hshallow h
  have htell : (r.tell file w (.error f)).result h = (Job.warn
      ("Failed to write history record: " ++ f.message) "history_write_failed"
      [("history_file", .path file), ("error_type", .str f.kind)]).result h := by
    unfold tell
    split
    · contradiction
    · rename_i heq
      exact absurd (Except.error.inj heq) hf
    · rename_i heq
      rw [Except.error.inj heq]
  exact ⟨_, _, _, htell.trans hwarn, rfl, ⟨_, rfl⟩,
    congrArg some (Log.Event.nameIn_record hplain h.now)⟩

/-- Of the two ways in which a run is told of, the one is to warn that its record is lost. -/
theorem unkept {es : List Effect} {f : Failure} {file file' : Path} (ht : r.Typed w.outcome)
    (hf : f ≠ .tooDeepToWrite) (hk : k.trace = es) (hm : m.trace = es) (id : Text) (now : Instant) :
    Unkept es ((r.report file w (.ok (Value.ofJsonFields
        (stamped (r.record w.latency w.outcome) id now)))).result k)
      ((r.report file' w (.error f)).result m) := by
  obtain ⟨k', run, hstored, hktrace, hrun⟩ := tell_stored ht file id now k
  obtain ⟨m', warning, failed, hlost, hmtrace, hwarning, hfailed⟩ := tell_lost hf r file' w m
  obtain ⟨ending, rest, hrest, hanswer⟩ := result_answer w
  unfold report
  rw [Job.result_bind_ok hstored, Job.result_bind_ok hlost, hanswer, hanswer]
  refine ⟨rfl, run, warning, failed, rest, ?_, ?_, hrun, hwarning, hfailed, hrest⟩
  · simp only [hktrace, hk]
  · simp only [hmtrace, hm]

end

namespace ComesTo

variable [Runtime]

/-- A run whose record is stored is told of behind it. -/
theorem result_stored {stored : History.Entry} (hc : ComesTo registry name o ctx ask host r w k)
    (ha : (History.append ctx.historyFile (entry (r.record w.latency w.outcome))).result k =
      (.ok stored, m)) : ∃ id now, m.trace = k.trace ∧
    (perform registry name o ctx ask).result host = (r.report ctx.historyFile w
      (.ok (Value.ofJsonFields (stamped (r.record w.latency w.outcome) id now)))).result m := by
  obtain ⟨hid, htime⟩ := find?_record_stamp r w.latency w.outcome
  obtain ⟨record, hcomplete, rfl⟩ := History.append_returns ha
  obtain ⟨id, -, rfl⟩ := hcomplete.stamped hid htime
  have hattempt : (Job.attempt (History.append ctx.historyFile
      (entry (r.record w.latency w.outcome)))).result k = (.ok (.ok (Value.ofJsonFields
        (stamped (r.record w.latency w.outcome) id k.now))), m) := by
    rw [Job.result_attempt, ha]
  refine ⟨id, k.now, History.trace_append ha, ?_⟩
  rw [hc.result, Job.result_bind_ok hattempt]

/-- A run whose record is lost is told of as well; the record is not nested too deeply. -/
theorem result_lost {e : Halt} (hc : ComesTo registry name o ctx ask host r w k)
    (ht : r.Typed w.outcome)
    (ha : (History.append ctx.historyFile (entry (r.record w.latency w.outcome))).result k =
      (.error e, m)) : ∃ f, f ≠ .tooDeepToWrite ∧ m.trace = k.trace ∧
    (perform registry name o ctx ask).result host =
      (r.report ctx.historyFile w (.error f)).result m := by
  obtain ⟨hid, htime⟩ := find?_record_stamp r w.latency w.outcome
  have hends := History.append_ends hid htime ctx.historyFile k
  unfold entry at ha
  rw [ha] at hends
  obtain ⟨-, hdeep⟩ | ⟨-, ⟨stored, hstored⟩ | ⟨reason, hlost⟩⟩ := hends
  · exact absurd hdeep (Nat.not_le.2 (ht.nesting w.latency))
  · cases hstored
  · cases hlost
    have hattempt : (Job.attempt (History.append ctx.historyFile
        (entry (r.record w.latency w.outcome)))).result k =
          (.ok (.error (.historyWrite ctx.historyFile.text reason)), m) := by
      unfold entry
      rw [Job.result_attempt, ha]
    refine ⟨.historyWrite ctx.historyFile.text reason, ?_, History.trace_append ha, ?_⟩
    · exact fun hdeep => by cases hdeep
    · rw [hc.result, Job.result_bind_ok hattempt]

end ComesTo

section

variable [Runtime]

/-- That the record of a run cannot be kept shows in a warning and in nothing else. A run that comes
to no work keeps no record, wherever it takes place. Any other run comes to the same work with a
history that takes its record and with one that does not, by the same way, on which nothing is said of
the record and no error is reported. Then it ends the same. Instead of the one event that tells of a
kept record there are a warning and its event; behind them, if anything, stands the error. The same
holds beside a run that is told of as kept although nothing can store its record. -/
theorem unkept_only_warns (he : Elsewhere ctx host ctx' host')
    (hask : Gate.Unaware (· = ctx.socket) ask) (registry : Registry) (name : Json) (o : Options) :
    ((¬ ∃ r w k, ComesTo registry name o ctx ask host r w k) →
      ((perform registry name o ctx' ask).result host').1 =
          ((perform registry name o ctx ask).result host).1 ∧
        ((perform registry name o ctx' ask).result host').2.trace =
          ((perform registry name o ctx ask).result host).2.trace) ∧
    (∀ a text config h, registry.lookUp name = .ok (some a) →
      (acquire o ctx).result host = (.ok (text, config), h) → Provider.Configured config →
        ∃ r w k, ComesTo registry name o ctx ask host r w k) ∧
    ∀ r w k, ComesTo registry name o ctx ask host r w k → ∃ m es,
      ComesTo registry name o ctx' ask host' r w m ∧
      k.trace = host.trace ++ es ∧ m.trace = host.trace ++ es ∧ (∀ x ∈ es, x.Early) ∧
      (r.Typed w.outcome → ∀ e n, (History.append ctx'.historyFile
          (entry (r.record w.latency w.outcome))).result m = (.error e, n) →
        (∀ stored n', (History.append ctx.historyFile
            (entry (r.record w.latency w.outcome))).result k = (.ok stored, n') →
          Unkept (host.trace ++ es) ((perform registry name o ctx ask).result host)
            ((perform registry name o ctx' ask).result host')) ∧
        ∀ id now, Unkept (host.trace ++ es)
          ((r.report ctx.historyFile w (.ok (Value.ofJsonFields
            (stamped (r.record w.latency w.outcome) id now)))).result k)
          ((perform registry name o ctx' ask).result host')) := by
  refine ⟨perform_elsewhere he, fun a text config h => ComesTo.of_acquired, fun r w k hc => ?_⟩
  obtain ⟨m, hc', htrace⟩ := hc.elsewhere he hask
  obtain ⟨es, hes, hearly⟩ := hc.early hask
  refine ⟨m, es, hc', hes, htrace.trans hes, hearly, fun ht e n hlost => ?_⟩
  obtain ⟨f, hf, hn, hresult⟩ := hc'.result_lost ht hlost
  have hntrace : n.trace = host.trace ++ es := hn.trans (htrace.trans hes)
  rw [hresult]
  refine ⟨fun stored n' hstored => ?_, fun id now => unkept ht hf hes hntrace id now⟩
  obtain ⟨id, now, hn', hresult'⟩ := hc.result_stored hstored
  rw [hresult']
  exact unkept ht hf (hn'.trans hes) hntrace id now

end

def sealedDisk : Disk where
  refusal? _ := some { fault := .denied [] }

/-- A key that is pressed while the client is made stops a run in the same way whether its record is
kept or lost. -/
theorem unkept_only_warns_interrupted : ∃ es, Unkept es
    ((perform ⟨[echo]⟩ (.str "e") {} smallContext).result
      (smallHost (some (.interrupted pressedKey))))
    ((perform ⟨[echo]⟩ (.str "e") {} smallContext).result
      { smallHost (some (.interrupted pressedKey)) with disk := sealedDisk }) := by
  have he : Elsewhere smallContext (smallHost (some (.interrupted pressedKey))) smallContext
      { smallHost (some (.interrupted pressedKey)) with disk := sealedDisk } := ⟨rfl, rfl, rfl⟩
  have hstopped : ∃ k, smallRun.Ends smallContext.daemon Gate.askTerminal
      ((acquire {} smallContext).result (smallHost (some (.interrupted pressedKey)))).2
      { ending := .error (.interrupted pressedKey) } k := ⟨_, .unready rfl rfl⟩
  obtain ⟨k, hk⟩ := hstopped
  have hc : ComesTo ⟨[echo]⟩ (.str "e") {} smallContext Gate.askTerminal
      (smallHost (some (.interrupted pressedKey))) smallRun
      { ending := .error (.interrupted pressedKey) } k := ⟨_, smallRun_underWay _, hk.result⟩
  have ht : smallRun.Typed (Work.outcome { ending := .error (.interrupted pressedKey) }) :=
    ⟨⟨_, rfl⟩, (fun output ho => by cases ho), .inl rfl, by decide⟩
  obtain ⟨-, -, hlost⟩ := unkept_only_warns he (Gate.askTerminal_unaware _) ⟨[echo]⟩ (.str "e") {}
  obtain ⟨m, es, ⟨h, v, hm⟩, -, -, -, hunkept⟩ := hlost _ _ _ hc
  -- Nothing is logged, so the disks are what they were when the records are to be stored.
  have hkdisk : k.disk = {} := congrArg (fun x => x.2.disk) hk.result.symm
  have u : UnderWay ⟨[echo]⟩ (.str "e") {} smallContext
      { smallHost (some (.interrupted pressedKey)) with disk := sealedDisk } smallRun
      ((acquire {} smallContext).result
        { smallHost (some (.interrupted pressedKey)) with disk := sealedDisk }).2 :=
    ⟨rfl, rfl, rfl, rfl, rfl⟩
  obtain ⟨-, rfl⟩ := u.unique v
  have hmdisk : m.disk = sealedDisk := congrArg (fun x => x.2.disk) hm.symm
  have hwritable : History.Writable smallContext.historyFile "h.jsonl" k.disk :=
    hkdisk ▸ smallHost_writable none
  have hunmade : (m.disk.makeDirectory smallContext.historyFile.parent).2 =
      some (.os (.denied [])) := by
    rw [hmdisk]
    rfl
  obtain ⟨hid, htime⟩ := find?_record_stamp smallRun 0 (.failure interruptedMessage)
  obtain ⟨id, drawn, disk, line, hstored, -⟩ :=
    History.result_append hid htime (by decide) (ht.nesting 0) hwritable
  obtain ⟨e, n, hlost⟩ := History.append_unmade hunmade (smallRun.record 0 (.failure interruptedMessage))
  exact ⟨_, (hunkept ht e n hlost).1 _ _ hstored⟩

end Run
end ClipActions
