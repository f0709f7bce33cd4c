import ClipActions.Proofs.Command.Life
import ClipActions.Proofs.Command.Mildness
import ClipActions.Proofs.Run.Escapes

/-!
The boundary of a process. Whatever its command comes to on a mild host, the process ends with an exit
code, and a failure of the command is told once, without its secrets. Two things are done before
that boundary begins: the environment is read and the log is opened. A failure of either passes.
-/
namespace ClipActions

open Host (Adds)

open Job (Accounts Any Halts Keeps Mild)

namespace Command

variable [Runtime]

theorem get_errorless (dir : Path) :
    Keeps (Adds Effect.Errorless) (Registry.Source.get { dir }) :=
  Registry.get_keeps (Host.frame_adds _)
    ⟨fun _ => Effect.errorless_warning _, fun _ hx => hx.logs.errorless⟩ (fun _ _ => .of_eq rfl) rfl

/-- Every command reports one error if it ends with 1, and none if it ends otherwise. -/
theorem dispatch_accounts (c : Command) (ctx : Context) (dir : Path) :
    Accounts (c.dispatch ctx { dir }) := by
  have f := Host.frame_adds Effect.Errorless
  have hperform : ∀ registry name o, Accounts (Run.perform registry name o ctx) :=
    fun registry name o => Run.perform_accounts Gate.askTerminal_errorless registry name o ctx
  cases c with
  | run action args copy yes => exact .bind (get_errorless dir) fun registry => hperform _ _ _
  | actions =>
    show Accounts (Report.actions { dir })
    rw [Report.actions_eq]
    exact .bind (get_errorless dir) fun registry => (Report.printActions_plain registry).accounts
  | history limit => exact (Report.history_plain _ ctx).accounts
  | rerun id copy yes =>
    have hfind : Keeps (Host.Adds Effect.Errorless) (History.find? (.str id) ctx.historyFile) :=
      History.find?_keeps f (fun _ hx => hx.errorless) _ _
    refine .bind (f.hereditary.attempt hfind) fun found => ?_
    split
    · dsimp only
      split
      · exact .bind (f.hereditary.check _) fun name => .bind (f.hereditary.check _) fun o =>
          .bind (get_errorless dir) fun registry => hperform _ _ _
      · exact .report _
    · exact .report _
    · exact .fail _
  | status => exact (Report.status_plain ctx).accounts
  | clipboard => exact (Report.clipboard_plain ctx).accounts
  | config => exact (Report.config_plain ctx).accounts
  | logs tail log => exact (Report.logs_plain _ log ctx).accounts

end Command

namespace Invocation

/-- What a process reports whose command has ended in some way, and its exit code. -/
inductive Reported : Except Halt Int → Int → List Effect → Prop where
  | succeeded {es} (h : reports es = 0) : Reported (.ok 0) 0 es
  | failed {es} (h : reports es = 1) : Reported (.ok 1) 1 es
  /-- A failure that the command has not seen to is told once, without its secrets. -/
  | escaped {f before after} (hb : reports before = 0) (ha : reports after = 0) :
    Reported (.error (.failed f)) 1
      (before ++ .complained ("Error: " ++ Secret.redact f.message ++ "\n") :: after)
  | interrupted {m es} (h : reports es = 0) :
    Reported (.error (.interrupted (.keyboard m))) interruptedCode es

section

variable [Runtime]

/-- What a process does before its command: the log is opened, and its beginning told. -/
def commence (c : Command) (ctx : Context) (log : Option Text) : Job Unit := do
  Job.setTarget log
  let _ ← Job.readTimer
  logStart c ctx log

/-- How a process ends, and what it leaves behind. -/
inductive Boundary (env : Environment) (tokens : List Text) (host : Host) :
    Except Halt Int → List Effect → Prop where
  | misused {program : Text} {f : Command.Fault}
    (hl : Command.Line.parse (Command.route Command.Form.known tokens) = .error (.fault program f)) :
    Boundary env tokens host (.ok 2) [.complained (Command.Stop.fault program f).text]
  | informed {s : Command.Stop}
    (hl : Command.Line.parse (Command.route Command.Form.known tokens) = .error s)
    (hs : s.exitCode = 0) : Boundary env tokens host (.ok 0) [.printed s.text]
  | idle {log : Option (Option Text)}
    (hl : Command.Line.parse (Command.route Command.Form.known tokens) = .ok ⟨log, none⟩) :
    Boundary env tokens host (.ok 1) [.printed Command.overview.text]
  /-- The environment cannot be read. -/
  | unread {log : Option (Option Text)} {c : Command} {f : Failure}
    (hl : Command.Line.parse (Command.route Command.Form.known tokens) = .ok ⟨log, some c⟩)
    (he : Context.ofEnvironment env host.home = .error f) :
    Boundary env tokens host (.error (.failed f)) []
  /-- The log cannot be opened. -/
  | unopened {log : Option (Option Text)} {c : Command} {ctx : Context} {f : Failure}
    (hl : Command.Line.parse (Command.route Command.Form.known tokens) = .ok ⟨log, some c⟩)
    (he : Context.ofEnvironment env host.home = .ok ctx)
    (ho : ((Job.setTarget (logFile log.join ctx)).result host).1 = .error (.failed f)) :
    Boundary env tokens host (.error (.failed f)) []
  | carried {log : Option (Option Text)} {c : Command} {ctx : Context} {begun : Host}
    {result : Except Halt Int} {code : Int} {es : List Effect}
    (hl : Command.Line.parse (Command.route Command.Form.known tokens) = .ok ⟨log, some c⟩)
    (he : Context.ofEnvironment env host.home = .ok ctx)
    (hb : (commence c ctx (logFile log.join ctx)).result host = (.ok (), begun))
    (hd : ((c.dispatch ctx { dir := ctx.pluginDir }).result begun).1 = result)
    (hr : Reported result code es) : Boundary env tokens host (.ok code) es

end

variable {result : Except Halt Int} {es : List Effect} {host h : Host}

theorem errorless_stops {code : Int} {stop : Effect} (hs : stop.Stops code) : stop.Errorless := by
  obtain ⟨target, now, e, rfl, -⟩ := hs
  rfl

theorem reports_errorless {x : Effect} (hx : x.Errorless) : reports [x] = 0 :=
  reports_eq_zero fun _ hy => List.mem_singleton.1 hy ▸ hx

theorem reports_cons {x : Effect} (hx : x.Errorless) (es : List Effect) :
    reports (x :: es) = reports es := by
  rw [← List.singleton_append, reports_append, reports_errorless hx, Nat.zero_add]

/-- What comes first does not count if it reports no error. -/
theorem Reported.after {code : Int} (hr : Reported result code es) {before : List Effect}
    (hb : reports before = 0) : Reported result code (before ++ es) := by
  cases hr with
  | succeeded h => exact .succeeded (by rw [reports_append, hb, h])
  | failed h => exact .failed (by rw [reports_append, hb, h])
  | escaped hbefore ha =>
    rw [← List.append_assoc]
    exact .escaped (by rw [reports_append, hb, hbefore]) ha
  | interrupted h => exact .interrupted (by rw [reports_append, hb, h])

/-- What comes last does not count if it reports no error. -/
theorem Reported.before {code : Int} (hr : Reported result code es) {after : List Effect}
    (ha : reports after = 0) : Reported result code (es ++ after) := by
  cases hr with
  | succeeded h => exact .succeeded (by rw [reports_append, h, ha])
  | failed h => exact .failed (by rw [reports_append, h, ha])
  | escaped hbefore hafter =>
    rw [List.append_assoc, List.cons_append]
    exact .escaped hbefore (by rw [reports_append, hafter, ha])
  | interrupted h => exact .interrupted (by rw [reports_append, h, ha])

section

variable [Runtime]

/-- A process ends with an exit code if its command has ended mildly, and with what it adds to the
command's own reports there is one for each failure. -/
theorem stop_reported (b : Begun) (hm : MildEnd result) (ha : Accounted result es) (h : Host) :
    ∃ code fs, ((stop b result).result h).1 = .ok code ∧
      ((stop b result).result h).2.trace = h.trace ++ fs ∧ Reported result code (es ++ fs) := by
  have hnormal : ∀ code, Reported (.ok code) code es →
      ∃ code' fs, ((stop b (.ok code)).result h).1 = .ok code' ∧
        ((stop b (.ok code)).result h).2.trace = h.trace ++ fs ∧
        Reported (.ok code) code' (es ++ fs) := by
    intro code hr
    obtain ⟨stop, k, hs, hstop, htrace, -⟩ := result_stopNormal b code h
    have hnone := reports_errorless (errorless_stops hs)
    exact ⟨code, [stop], by rw [hstop], by rw [hstop, htrace], hr.before hnone⟩
  cases ha with
  | succeeded h0 => exact hnormal 0 (.succeeded h0)
  | failed h1 => exact hnormal 1 (.failed h1)
  | @stopped e _ h0 =>
    rcases e with f | i
    · obtain ⟨stop, k, hs, hstop, htrace, -⟩ := result_stopFailed b f h
      have hresult : (Invocation.stop b (.error (.failed f))).result h = (.ok 1, k) := hstop
      rw [hresult]
      exact ⟨1, _, rfl, htrace, .escaped h0 (reports_errorless (errorless_stops hs))⟩
    · cases i with
      | keyboard m =>
        obtain ⟨stop, k, hs, hstop, htrace, -⟩ := result_stopKeyboard b m h
        rw [hstop]
        refine ⟨interruptedCode, _, rfl, htrace, .interrupted ?_⟩
        rw [reports_append, h0, reports_cons (errorless_stops hs)]
        rfl
      | exit code m => exact (hm _ rfl).elim
      | cancelled m => exact (hm _ rfl).elim

/-- A process on a mild host, from the beginning that it tells of. -/
theorem live_reported (hm : h.Mild) (c : Command) (ctx : Context) (log : Option Text) :
    ∃ begun result code es,
      (Job.readTimer >>= fun _ => logStart c ctx log).result h = (.ok (), begun) ∧
      ((c.dispatch ctx { dir := ctx.pluginDir }).result begun).1 = result ∧
      ((live c ctx log).result h).1 = .ok code ∧
      ((live c ctx log).result h).2.trace = h.trace ++ es ∧ Reported result code es := by
  obtain ⟨t, -, timer, -, ht⟩ := Job.result_readTimer h
  have hread := (Mild.readTimer h hm).host
  rw [ht] at hread
  obtain ⟨start, m, hstart, hlog, htrace, -⟩ := result_logStart c ctx log { h with timer }
  have hbegun := (Mild.log (started c ctx log) _ hread).host
  have hmild : m.Mild := by
    have hm' : ((logStart c ctx log).result { h with timer }).2.Mild := hbegun
    rwa [hlog] at hm'
  have hend := (Command.dispatch_mild c ctx ctx.pluginDir m hmild).ending
  obtain ⟨es, hes, haccounted⟩ := Command.dispatch_accounts c ctx ctx.pluginDir m
  have hlive : (live c ctx log).result h =
      (stop ⟨c, t⟩ ((c.dispatch ctx { dir := ctx.pluginDir }).result m).1).result
        ((c.dispatch ctx { dir := ctx.pluginDir }).result m).2 := by
    unfold live
    rw [Job.result_bind_ok ht, Job.result_bind_ok hlog, Job.result_bind_ok (Job.result_settle _ m)]
  obtain ⟨code, fs, hcode, hfs, hreported⟩ := stop_reported ⟨c, t⟩ hend haccounted
    ((c.dispatch ctx { dir := ctx.pluginDir }).result m).2
  have hbegin : (Job.readTimer >>= fun _ => logStart c ctx log).result h = (.ok (), m) := by
    rw [Job.result_bind_ok ht, hlog]
  refine ⟨m, _, code, start :: (es ++ fs), hbegin, rfl, by rw [hlive, hcode], ?_, ?_⟩
  · rw [hlive, hfs, hes, htrace]
    simp
  · exact hreported.after (reports_errorless hstart.errorless)

end

theorem setTarget_halts (file : Option Text) : Halts Agent.IsFailure (Job.setTarget file) := by
  have hmodify : ∀ target, Halts Agent.IsFailure
      (modify fun h => { h with target } : Job Unit) := fun target k e he => by cases he
  unfold Job.setTarget
  split
  · exact hmodify _
  · exact (Halts.change fun d f _ => Agent.isFailure f).bind fun _ =>
      (Halts.change fun d f _ => Agent.isFailure f).bind fun _ => hmodify _

theorem setTarget_mild (file : Option Text) : Mild Any (Job.setTarget file) := by
  have hmodify : ∀ target, Mild Any (modify fun h => { h with target } : Job Unit) :=
    fun target k hk => ⟨hk.writing _ _ _, .ok _, fun _ _ => trivial⟩
  unfold Job.setTarget
  split
  · exact hmodify _
  · exact (Mild.change _).bind fun _ _ => (Mild.change _).bind fun _ _ => hmodify _

section

variable [Runtime]

/-- A process that has a command to carry out. -/
theorem begin_bounded (hm : host.Mild) {env : Environment} {tokens : List Text}
    {log : Option (Option Text)} {c : Command}
    (hl : Command.Line.parse (Command.route Command.Form.known tokens) = .ok ⟨log, some c⟩) :
    ∃ es, ((begin c log.join env).result host).2.trace = host.trace ++ es ∧
      Boundary env tokens host ((begin c log.join env).result host).1 es := by
  cases he : Context.ofEnvironment env host.home with
  | error f =>
    have hfailed : (begin c log.join env).result host = (.error (.failed f), host) := by
      unfold begin
      rw [Job.result_bind_ok (Job.result_get host), he]
      rfl
    rw [hfailed]
    exact ⟨[], (List.append_nil _).symm, .unread hl he⟩
  | ok ctx =>
    have htrace := Job.setTarget_trace (logFile log.join ctx) host
    have hmild := (setTarget_mild (logFile log.join ctx) host hm).host
    have hhalts := setTarget_halts (logFile log.join ctx) host
    rw [result_begin c log.join he]
    cases ho : (Job.setTarget (logFile log.join ctx)).result host with
    | mk opened k =>
      rw [ho] at htrace hmild hhalts
      cases opened with
      | error e =>
        obtain ⟨f, rfl⟩ := hhalts e rfl
        rw [Job.result_bind_error ho]
        exact ⟨[], by rw [htrace, List.append_nil], .unopened hl he (by rw [ho])⟩
      | ok u =>
        obtain ⟨begun, result, code, es, hbegin, hd, hcode, hes, hr⟩ :=
          live_reported hmild c ctx (logFile log.join ctx)
        have hb : (commence c ctx (logFile log.join ctx)).result host = (.ok (), begun) := by
          unfold commence
          rw [Job.result_bind_ok ho, hbegin]
        rw [Job.result_bind_ok ho, hcode]
        exact ⟨es, by rw [hes, htrace], .carried hl he hb hd hr⟩

/-- On a mild host a process ends with an exit code, and a failure of its command is told once and
without its secrets; but that the environment cannot be read or the log cannot be opened passes
untold. -/
theorem main_bounds_failures (hm : host.Mild) (env : Environment) (tokens : List Text) :
    ∃ es, ((main env tokens).result host).2.trace = host.trace ++ es ∧
      Boundary env tokens host ((main env tokens).result host).1 es := by
  unfold main
  cases hl : Command.Line.parse (Command.route Command.Form.known tokens) with
  | error s =>
    cases s with
    | fault program f => exact ⟨_, rfl, .misused hl⟩
    | help g => exact ⟨_, rfl, .informed hl rfl⟩
    | version v => exact ⟨_, rfl, .informed hl rfl⟩
  | ok line =>
    obtain ⟨log, command⟩ := line
    cases command with
    | none => exact ⟨_, rfl, .idle hl⟩
    | some c => exact begin_bounded hm hl

end

theorem main_history [Runtime] (env : Environment) :
    main env ["history"] = begin (.history (some 20)) none env := by
  have hparsed : Command.Line.parse (Command.route Command.Form.known ["history"]) =
      .ok ⟨none, some (.history (some 20))⟩ := by
    decide +kernel
  unfold main
  rw [hparsed]
  rfl

/-- A host where a directory stands in the place of the history. -/
def heldHost : Host := { Run.smallHost none with disk.nodes := [("h.jsonl", .directory)] }

theorem heldHost_mild : heldHost.Mild where
  service _ ha := by cases ha
  silence := .error trivial
  opening _ _ _ he := by cases he
  copying _ _ he := by cases he
  loading _ _ := ⟨nofun, nofun⟩
  registry _ hr := by cases hr

/-- A history that cannot be read is told of once, and the process ends with 1. -/
theorem main_bounds_failures_history :
    heldHost.Mild ∧
    ∃ es, ((main smallEnvironment ["history"]).result heldHost).2.trace = heldHost.trace ++ es ∧
      Boundary smallEnvironment ["history"] heldHost (.ok 1) es ∧ reports es = 1 ∧
      .complained "Error: [Errno 21] Is a directory: 'h.jsonl'\n" ∈ es := by
  obtain ⟨es, hes, hboundary⟩ :=
    main_bounds_failures heldHost_mild smallEnvironment ["history"]
  have hcount : reports es = 1 := by
    have htrace : es = ((main smallEnvironment ["history"]).result heldHost).2.trace := hes.symm
    rw [htrace, main_history]
    rfl
  have htold : ((main smallEnvironment ["history"]).result heldHost).2.trace[1]? =
      some (.complained "Error: [Errno 21] Is a directory: 'h.jsonl'\n") := by
    rw [main_history]
    rfl
  rw [hes] at htold
  refine ⟨heldHost_mild, es, hes, ?_, hcount, List.mem_of_getElem? htold⟩
  rw [main_history] at hboundary
  exact hboundary

/-- A file under the home directory of an unknown user ends a process with a failure that is not
told. -/
theorem unknown_home_passes :
    (main [("CBAI_HISTORY_FILE", "~nosuchuser/h")] ["history"]).result (Run.smallHost none) =
      (.error (.failed .homeUnknown), Run.smallHost none) := by
  rw [main_history]
  rfl

end Invocation
end ClipActions
