import ClipActions.Proofs.Command.Dispatch

/-!
The life of a process. Once its log is open a process tells of its beginning, carries out its
command, and tells of its end with the exit code that it ends with. A command that wishes to exit or
is cancelled ends the process at once, and nobody tells of that end.
-/
namespace ClipActions

open History (Stores)

open Host (Extends Logged)

open Job (Keeps)

/-- An effect tells that the process ends with an exit code. -/
def Effect.Stops (code : Int) (x : Effect) : Prop :=
  ∃ (target : Log.Target) (now : Instant) (e : Log.Event),
    x = .logged target e.level (e.record now) ∧ e.Plain ∧ e.name = "app_stop" ∧
      ∀ v, (("exit_code", v) : Text × Data) ∈ e.fields ↔ v = .int code

namespace Invocation

variable {b : Begun} {reason : Reason} {code : Int} {h k : Host}

/-! The end of a process. -/

def stopped (b : Begun) (reason : Reason) (code : Int) (uptime : Double) : Log.Event :=
  let known : List (Text × Data) := [
    ("command", .str b.command.name), ("reason", .str reason.text), ("exit_code", .int code)]
  let last : List (Text × Data) := [("uptime_ms", .float uptime)]
  { name := "app_stop", level := reason.level, fields := known ++ reason.fields ++ last }

theorem plain_stopped (b : Begun) (reason : Reason) (code : Int) (uptime : Double) :
    (stopped b reason code uptime).Plain := by
  cases reason <;> exact .of_names rfl

section

variable [Runtime]

theorem shallow_stopped (b : Begun) (reason : Reason) (code : Int) (uptime : Double) :
    (stopped b reason code uptime).Shallow := by
  cases reason <;> exact .of_nestings rfl

end

theorem exitCode_stopped (b : Begun) (reason : Reason) (code : Int) (uptime : Double) (v : Data) :
    (("exit_code", v) : Text × Data) ∈ (stopped b reason code uptime).fields ↔ v = .int code := by
  have hcommand : ("exit_code" : Text) ≠ "command" := by decide
  have hreason : ("exit_code" : Text) ≠ "reason" := by decide
  have hkind : ("exit_code" : Text) ≠ "error_type" := by decide
  have herror : ("exit_code" : Text) ≠ "error" := by decide
  have huptime : ("exit_code" : Text) ≠ "uptime_ms" := by decide
  cases reason <;> simp [stopped, Reason.fields, hcommand, hreason, hkind, herror, huptime]

theorem stops_stopped (b : Begun) (reason : Reason) (code : Int) (uptime : Double)
    (target : Log.Target) (now : Instant) : Effect.Stops code
      (.logged target (stopped b reason code uptime).level
        ((stopped b reason code uptime).record now)) :=
  ⟨target, now, _, rfl, plain_stopped b reason code uptime, rfl,
    exitCode_stopped b reason code uptime⟩

section

variable [Runtime]

/-- The end is told of once, and the log is all that is written to. -/
theorem result_logStop (b : Begun) (reason : Reason) (code : Int) (h : Host) :
    ∃ stop k, stop.Stops code ∧ (logStop b reason code).result h = (.ok (), k) ∧
      k.trace = h.trace ++ [stop] ∧ Logged h k := by
  have f := (Host.frame_extends fun _ => True).hereditary
  have hkeeps : Keeps (Extends fun _ => True) (logStop b reason code) :=
    f.bind (f.sinceTenth _) fun uptime =>
      f.log (plain_stopped b reason code uptime) fun _ _ => trivial
  obtain ⟨uptime, timer, hsince⟩ := Job.result_sinceTenth b.start h
  obtain ⟨disk, target, hlog⟩ := Job.result_log_ok
    (shallow_stopped b reason code uptime) { h with timer }
  have hstop : (logStop b reason code).result h = _ := (Job.result_bind_ok hsince _).trans hlog
  exact ⟨_, _, stops_stopped b reason code _ h.target h.now, hstop, rfl,
    (hkeeps.after hstop).logged⟩

def fatalRecord (f : Failure) : Log.Record where
  level := Log.Level.error
  message := "Fatal error: " ++ Secret.redact f.message
  error := some (.failed f)

/-- A failure of a command is told to the user before the end is told of. -/
theorem result_stopFailed (b : Begun) (f : Failure) (h : Host) :
    ∃ stop k, stop.Stops 1 ∧ (stopFailed b f).result h = (.ok 1, k) ∧
      k.trace = h.trace ++ [.complained ("Error: " ++ Secret.redact f.message ++ "\n"), stop] ∧
      Logged h k := by
  have frame := Host.frame_extends fun _ => True
  have hsaid : (Run.reportError (Secret.redact f.message)).result h = (.ok (), { h with
      trace := h.trace ++ [.complained ("Error: " ++ Secret.redact f.message ++ "\n")] }) := rfl
  obtain ⟨stop, m, hs, hstop, htrace, hlogged⟩ :=
    result_logStop b (.fatal f.kind (Secret.redact f.message)) 1 { h with
      trace := h.trace ++ [.complained ("Error: " ++ Secret.redact f.message ++ "\n")] }
  have hparsed : Log.Block.parsed (fatalRecord f).message = .ok none := rfl
  obtain ⟨disk, target, hrecord⟩ := Job.result_logRecord_ok hparsed m
  have hrest : Logged m { m with disk, target } :=
    ((frame.logRecord (fatalRecord f)).after hrecord).logged
  have hsame : Logged h { h with
      trace := h.trace ++ [.complained ("Error: " ++ Secret.redact f.message ++ "\n")] } :=
    .of_eq rfl rfl
  refine ⟨stop, { m with disk, target }, hs, ?_, ?_, (hsame.trans hlogged).trans hrest⟩
  · unfold stopFailed
    dsimp only
    rw [Job.result_bind_ok hsaid, Job.result_bind_ok hstop]
    exact Job.result_bind_ok hrecord _
  · rw [htrace, List.append_assoc]
    rfl

end

/-- An interruption that nobody sees to: a wish to exit, or that the command is cancelled. -/
def Passes (i : Interruption) : Prop := ∀ m, i ≠ .keyboard m

/-- What is told at the end of a process, behind its beginning. -/
inductive Closing : Except Halt Int → List Effect → Prop where
  | told {code before stop after} (hb : ∀ x ∈ before, Effect.Inner x) (hs : stop.Stops code)
    (ha : ∀ x ∈ after, Effect.Inner x) : Closing (.ok code) (before ++ stop :: after)
  | silent {i es} (hi : Passes i) (he : ∀ x ∈ es, Effect.Inner x) :
    Closing (.error (.interrupted i)) es

theorem Closing.behind {result : Except Halt Int} {es middle : List Effect}
    (hc : Closing result es) (hm : ∀ x ∈ middle, Effect.Inner x) :
    Closing result (middle ++ es) := by
  have hboth : ∀ {before : List Effect}, (∀ x ∈ before, Effect.Inner x) →
      ∀ x ∈ middle ++ before, Effect.Inner x := by
    intro before hb x hx
    rcases List.mem_append.1 hx with hx | hx
    · exact hm x hx
    · exact hb x hx
  cases hc with
  | told hb hs ha =>
    rw [← List.append_assoc]
    exact .told (hboth hb) hs ha
  | silent hi he => exact .silent hi (hboth he)

/-- What a process comes to whose command has ended with a result: it tells of its end, only the log
is written to, and it ends with 0 if and only if the command has. -/
structure Closes (result : Except Halt Int) (h : Host) (ended : Except Halt Int × Host) : Prop where
  told : ∃ es, ended.2.trace = h.trace ++ es ∧ Closing ended.1 es
  logged : Logged h ended.2
  zero : ∀ code, ended.1 = .ok code → (code = 0 ↔ result = .ok 0)

theorem inner_complained {t : Text} : ∀ x ∈ [Effect.complained t], x.Inner := fun x hx => by
  rw [List.mem_singleton.1 hx]
  exact Effect.inner_of_none rfl

theorem inner_nil : ∀ x ∈ ([] : List Effect), x.Inner := fun _ hx => by cases hx

section

variable [Runtime]

/-- A failure of the command is complained of first. -/
theorem stopFailed_closes (b : Begun) (f : Failure) (h : Host) :
    Closes (.error (.failed f)) h ((stop b (.error (.failed f))).result h) := by
  obtain ⟨stop, k, hs, hr, htrace, hlogged⟩ := result_stopFailed b f h
  have hstop : (Invocation.stop b (.error (.failed f))).result h = (.ok 1, k) := hr
  rw [hstop]
  refine ⟨⟨_, htrace, .told inner_complained hs inner_nil⟩, hlogged, fun code hc => ?_⟩
  cases hc
  exact iff_of_false (by decide) fun hk => by cases hk

/-- A key that stops the command stops the process too, with an exit code of its own. -/
theorem result_stopKeyboard (b : Begun) (m : Text) (h : Host) :
    ∃ stop k, stop.Stops interruptedCode ∧
      (Invocation.stop b (.error (.interrupted (.keyboard m)))).result h =
        (.ok interruptedCode, k) ∧
      k.trace = h.trace ++ [stop, .complained ("\nInterrupted" ++ "\n")] ∧ Logged h k := by
  obtain ⟨stop, k, hs, hr, htrace, hlogged⟩ := result_logStop b .keyboard interruptedCode h
  refine ⟨stop, { k with trace := k.trace ++ [.complained ("\nInterrupted" ++ "\n")] }, hs, ?_, ?_,
    hlogged.trans (.of_eq rfl rfl)⟩
  · unfold Invocation.stop
    dsimp only
    rw [Job.result_bind_ok hr]
    rfl
  · dsimp only
    rw [htrace, List.append_assoc]
    rfl

theorem stopKeyboard_closes (b : Begun) (m : Text) (h : Host) :
    Closes (.error (.interrupted (.keyboard m))) h
      ((stop b (.error (.interrupted (.keyboard m)))).result h) := by
  obtain ⟨stop, k, hs, hr, htrace, hlogged⟩ := result_stopKeyboard b m h
  rw [hr]
  refine ⟨⟨_, htrace, .told inner_nil hs inner_complained⟩, hlogged, fun code hc => ?_⟩
  cases hc
  exact iff_of_false (by decide) fun hk => by cases hk

theorem stopPassing_closes (b : Begun) {i : Interruption} (hi : Passes i) (h : Host) :
    Closes (.error (.interrupted i)) h ((stop b (.error (.interrupted i))).result h) := by
  have hstop : (stop b (.error (.interrupted i))).result h = (.error (.interrupted i), h) := by
    cases i with
    | keyboard m => exact absurd rfl (hi m)
    | exit code m => rfl
    | cancelled m => rfl
  rw [hstop]
  exact ⟨⟨[], (List.append_nil _).symm, .silent hi inner_nil⟩, .refl h, fun _ hc => by cases hc⟩

/-- The exit code of a command is the exit code of its process. -/
theorem result_stopNormal (b : Begun) (code : Int) (h : Host) :
    ∃ stop k, stop.Stops code ∧ (Invocation.stop b (.ok code)).result h = (.ok code, k) ∧
      k.trace = h.trace ++ [stop] ∧ Logged h k := by
  obtain ⟨stop, k, hs, hr, htrace, hlogged⟩ := result_logStop b .normal code h
  refine ⟨stop, k, hs, ?_, htrace, hlogged⟩
  unfold Invocation.stop
  dsimp only
  rw [Job.result_bind_ok hr]
  rfl

theorem stopNormal_closes (b : Begun) (code : Int) (h : Host) :
    Closes (.ok code) h ((stop b (.ok code)).result h) := by
  obtain ⟨stop, k, hs, hr, htrace, hlogged⟩ := result_stopNormal b code h
  rw [hr]
  refine ⟨⟨[stop], htrace, .told inner_nil hs inner_nil⟩, hlogged, fun code' hc => ?_⟩
  cases hc
  exact ⟨fun h0 => by rw [h0], fun h0 => Except.ok.inj h0⟩

/-- A process whose command has ended tells of its end, unless the command is over by an
interruption that passes. -/
theorem stop_closes (b : Begun) (result : Except Halt Int) (h : Host) :
    Closes result h ((stop b result).result h) := by
  rcases result with (f | i) | code
  · exact stopFailed_closes b f h
  · cases i with
    | keyboard m => exact stopKeyboard_closes b m h
    | exit code m => exact stopPassing_closes b (fun _ hk => by cases hk) h
    | cancelled m => exact stopPassing_closes b (fun _ hk => by cases hk) h
  · exact stopNormal_closes b code h

end

/-! The beginning of a process. -/

def started (c : Command) (ctx : Context) (log : Option Text) : Log.Event :=
  { name := "app_start"
    fields := [
      ("command", .str c.name), ("daemon_mode", .bool ctx.daemon),
      ("log_file", (log.map Value.str).getD .null)] }

theorem plain_started (c : Command) (ctx : Context) (log : Option Text) :
    (started c ctx log).Plain := .of_names rfl

theorem logs_started (c : Command) (ctx : Context) (log : Option Text) (target : Log.Target)
    (now : Instant) : (Effect.logged target (started c ctx log).level
      ((started c ctx log).record now)).Logs "app_start" :=
  congrArg some (Log.Event.nameIn_record (plain_started c ctx log) now)

section

variable [Runtime]

theorem result_logStart (c : Command) (ctx : Context) (log : Option Text) (h : Host) :
    ∃ start k, start.Logs "app_start" ∧ (logStart c ctx log).result h = (.ok (), k) ∧
      k.trace = h.trace ++ [start] ∧ Logged h k := by
  have hshallow : (started c ctx log).Shallow := by
    cases log <;> exact .of_nestings rfl
  have hkeeps : Keeps (Extends fun _ => True) (logStart c ctx log) :=
    (Host.frame_extends _).hereditary.log (plain_started c ctx log) fun _ _ => trivial
  obtain ⟨disk, target, hlog⟩ := Job.result_log_ok hshallow h
  exact ⟨_, _, logs_started c ctx log h.target h.now, hlog, rfl, (hkeeps.after hlog).logged⟩

/-- A process from the beginning that it tells of. -/
def live (c : Command) (ctx : Context) (log : Option Text) : Job Int := do
  let b : Begun := ⟨c, ← Job.readTimer⟩
  logStart c ctx log
  stop b (← Job.settle (c.dispatch ctx { dir := ctx.pluginDir }))

/-- A process that has its log open on a host, with what it comes to and the host that it leaves. It
tells of its beginning first. What it tells at its end agrees with how it ends; and if it stores a
record, it ends with 0 if and only if the record says that its run has succeeded and can be
measured. -/
structure Life (file : Path) (opened : Host) (result : Except Halt Int) (final : Host) : Prop where
  told : ∃ start es, final.trace = opened.trace ++ start :: es ∧ start.Logs "app_start" ∧
    Closing result es
  stores : ∃ records, Stores file records opened final ∧ ∀ code, result = .ok code →
    ∀ record ∈ records, code = 0 ↔ Run.Succeeded record ∧ Run.Measured record

theorem life_live (c : Command) (ctx : Context) (log : Option Text) (h : Host) :
    Life ctx.historyFile h ((live c ctx log).result h).1 ((live c ctx log).result h).2 := by
  obtain ⟨t, -, timer, -, ht⟩ := Job.result_readTimer h
  obtain ⟨start, m, hstart, hlog, htrace, hlogged⟩ := result_logStart c ctx log { h with timer }
  have hread : Logged h { h with timer } := .of_eq rfl rfl
  have hbegun : Logged h m := hread.trans hlogged
  obtain ⟨⟨middle, hmiddle, hinner⟩, records, hstores, hcode⟩ :=
    Command.dispatch_stores c ctx ctx.pluginDir m
  have hlive : (live c ctx log).result h =
      (stop ⟨c, t⟩ ((c.dispatch ctx { dir := ctx.pluginDir }).result m).1).result
        ((c.dispatch ctx { dir := ctx.pluginDir }).result m).2 := by
    unfold live
    rw [Job.result_bind_ok ht, Job.result_bind_ok hlog, Job.result_bind_ok (Job.result_settle _ m)]
  generalize (c.dispatch ctx { dir := ctx.pluginDir }).result m = dispatched at *
  obtain ⟨result, n⟩ := dispatched
  obtain ⟨⟨es, hes, hcloses⟩, hrest, hzero⟩ := stop_closes ⟨c, t⟩ result n
  rw [hlive]
  refine ⟨⟨start, middle ++ es, ?_, hstart, hcloses.behind hinner⟩,
    records, (hstores.after hbegun).before hrest, fun code hc record hr => ?_⟩
  · rw [hes, hmiddle, htrace]
    simp
  · rw [hzero code hc]
    exact hcode record hr

end

/-- A process comes to its end before its log is open. At most the log has been made. -/
def Unborn (host final : Host) : Prop :=
  ∃ es file, final.trace = host.trace ++ es ∧ (∀ x ∈ es, Effect.Inner x) ∧
    final.disk = ((Job.setTarget file).result host).2.disk

theorem unborn_of_emit {x : Effect} (hx : x.event? = none) (host : Host) :
    Unborn host { host with trace := host.trace ++ [x] } := by
  refine ⟨[x], none, rfl, fun y hy => ?_, rfl⟩
  rw [List.mem_singleton.1 hy]
  exact Effect.inner_of_none hx

/-- Where the log of a process goes: to the file that its command line names, or its environment. -/
def logFile (log : Option Text) (ctx : Context) : Option Text :=
  (log.filter (!·.isEmpty)).orElse fun _ => ctx.logFile.map (·.text)

section

variable [Runtime]

theorem result_begin {ctx : Context} {env : Environment} {host : Host} (c : Command)
    (log : Option Text) (hctx : Context.ofEnvironment env host.home = .ok ctx) :
    (begin c log env).result host =
      (Job.setTarget (logFile log ctx) >>= fun _ => live c ctx (logFile log ctx)).result host := by
  unfold begin
  rw [Job.result_bind_ok (Job.result_get host), hctx]
  rfl

theorem begin_lives (c : Command) (log : Option Text) (env : Environment) (host : Host) :
    Unborn host ((begin c log env).result host).2 ∨
    ∃ ctx file opened, Context.ofEnvironment env host.home = .ok ctx ∧
      (Job.setTarget file).result host = (.ok (), opened) ∧ opened.trace = host.trace ∧
      Life ctx.historyFile opened ((begin c log env).result host).1
        ((begin c log env).result host).2 := by
  have hunborn : ∀ k : Host, k.trace = host.trace →
      (∃ file, k.disk = ((Job.setTarget file).result host).2.disk) → Unborn host k := by
    rintro k htrace ⟨file, hdisk⟩
    exact ⟨[], file, by rw [htrace, List.append_nil], (fun _ hx => by cases hx), hdisk⟩
  cases hctx : Context.ofEnvironment env host.home with
  | error f =>
    have hfailed : (begin c log env).result host = (.error (.failed f), host) := by
      unfold begin
      rw [Job.result_bind_ok (Job.result_get host), hctx]
      rfl
    rw [hfailed]
    exact .inl (hunborn host rfl ⟨none, rfl⟩)
  | ok ctx =>
    have htrace := Job.setTarget_trace (logFile log ctx) host
    rw [result_begin c log hctx]
    cases ho : (Job.setTarget (logFile log ctx)).result host with
    | mk result opened =>
      rw [ho] at htrace
      cases result with
      | error e =>
        rw [Job.result_bind_error ho]
        exact .inl (hunborn opened htrace ⟨logFile log ctx, by rw [ho]⟩)
      | ok u =>
        rw [Job.result_bind_ok ho]
        exact .inr ⟨ctx, _, opened, rfl, ho, htrace, life_live c ctx _ opened⟩

/-- A process whose log is never opened tells of no beginning, and one whose log is open has a life:
it tells of its beginning, and then once of its end, with the exit code that it ends with, unless its
command is over by a wish to exit or is cancelled. -/
theorem main_lives (env : Environment) (tokens : List Text) (host : Host) :
    Unborn host ((main env tokens).result host).2 ∨
    ∃ ctx file opened, Context.ofEnvironment env host.home = .ok ctx ∧
      (Job.setTarget file).result host = (.ok (), opened) ∧ opened.trace = host.trace ∧
      Life ctx.historyFile opened ((main env tokens).result host).1
        ((main env tokens).result host).2 := by
  unfold main
  cases Command.Line.parse (Command.route Command.Form.known tokens) with
  | error s =>
    left
    cases s with
    | fault => exact unborn_of_emit rfl host
    | help => exact unborn_of_emit rfl host
    | version => exact unborn_of_emit rfl host
  | ok line =>
    obtain ⟨log, command⟩ := line
    cases command with
    | none => exact .inl (unborn_of_emit rfl host)
    | some c =>
      exact begin_lives c log.join env host

end

/-! A process whose command wishes to exit. -/

def wish : Interruption := .exit (.int 0) "0"

def leaving : Action where
  id := "leave"
  aliases := []
  description := "Plugin action: leave"
  title := "leave"
  run _ := .stop (.interrupted wish)

def leavingDisk : Disk where
  nodes := [("actions", .directory), ("actions/leave.py", .file [])]

def leavingHost (told : List Effect) : Host := { Run.smallHost none with
  disk := leavingDisk
  load := fun _ _ => {
    attributes := [("id", .str "leave"), ("run", .function fun _ => .stop (.interrupted wish))] }
  trace := told }

/-- That host once the actions are known. -/
def loadedHost (told : List Effect) : Host :=
  { leavingHost told with registry := some ⟨Action.builtins ++ [leaving]⟩ }

/-- An environment with that plugin directory and a text of its own. -/
def smallEnvironment : Environment := [
  ("CBAI_HISTORY_FILE", "h.jsonl"), ("CBAI_PLUGIN_DIR", "actions"), ("CBAI_LOG_DIR", "."),
  ("CBAI_SOCKET_PATH", "agent.sock"), ("CBAI_INPUT_TEXT", "hi")]

theorem result_get_leaving (told : List Effect) : ∃ more,
    (Registry.Source.get { dir := "actions" }).result (leavingHost told) =
      (.ok ⟨Action.builtins ++ [leaving]⟩, loadedHost (told ++ more)) := by
  have hthere : (leavingHost told).disk.isDirectory "actions" = .ok true := rfl
  have hlist : (leavingHost told).disk.list "actions" = .ok [("leave.py", .file [])] := rfl
  have hfiles : Plugin.files "actions" [("leave.py", .file [])] = ["actions/leave.py"] := by
    decide +kernel
  have hload : (Plugin.loadDirectory "actions").result (leavingHost told) =
      (.ok [leaving], leavingHost told) := by
    unfold Plugin.loadDirectory
    rw [Job.result_bind_ok (Job.result_get _)]
    dsimp only
    rw [hthere, hlist]
    dsimp only
    rw [hfiles]
    rfl
  have hbuild : ∃ more, (Registry.Source.build { dir := "actions" }).result (leavingHost told) =
      (.ok ⟨Action.builtins ++ [leaving]⟩, leavingHost (told ++ more)) := by
    unfold Registry.Source.build
    rw [Job.result_bind_ok hload]
    exact ⟨[_], rfl⟩
  obtain ⟨more, hbuild⟩ := hbuild
  refine ⟨more, ?_⟩
  unfold Registry.Source.get
  rw [Job.result_bind_ok (Job.result_get _)]
  exact Job.result_bind_ok hbuild _

def leavingRun : Run := { Run.smallRun with
  action := leaving, provenance := .of leaving {} Run.smallContext }

theorem leavingRun_underWay (told : List Effect) :
    Run.UnderWay ⟨Action.builtins ++ [leaving]⟩ (.str "leave") {} Run.smallContext (loadedHost told)
      leavingRun ((Run.acquire {} Run.smallContext).result (loadedHost told)).2 :=
  ⟨rfl, rfl, rfl, rfl, rfl⟩

theorem leavingRun_ends (told : List Effect) : ∃ w k, w.ending = .error (.interrupted wish) ∧
    leavingRun.Ends Run.smallContext.daemon Gate.askTerminal
      ((Run.acquire {} Run.smallContext).result (loadedHost told)).2 w k := by
  have hask := Gate.askTerminal_keeps (Host.frame_extends fun _ => True) fun _ _ => trivial
  have hmeasurable : ((Run.acquire {} Run.smallContext).result (loadedHost told)).2.Measurable :=
    Host.measurable_of_nil rfl
  obtain ⟨k, c, m, hpass, hprepare⟩ : ∃ k c m,
      (Gate.pass leavingRun.config (leavingRun.request false Gate.askTerminal)).result
        ((Run.acquire {} Run.smallContext).result (loadedHost told)).2 = (.ok (), k) ∧
      leavingRun.prepare.result k = (.ok c, m) := ⟨_, _, _, rfl, rfl⟩
  obtain ⟨_, _, _, _, -, hwork⟩ := Run.result_prepared_work hmeasurable hask hpass hprepare
  exact ⟨_, _, rfl, .stopped ⟨k, c, m, hpass, hprepare, hwork⟩ rfl⟩

theorem leavingDisk_writable : History.Writable "h.jsonl" "h.jsonl" leavingDisk := by
  have hmade : leavingDisk.makeDirectory (Path.parent "h.jsonl") = (leavingDisk, none) := by
    have hthere : leavingDisk.makeWithin (Path.parent "h.jsonl") = .ok leavingDisk := rfl
    unfold Disk.makeDirectory
    exact Disk.makeAll_of_ok hthere
  refine ⟨by rw [hmade], ?_, rfl⟩
  rw [hmade]
  rfl

/-- The wish passes, and what is kept of the run has a failure. -/
theorem result_dispatch_leaving (told : List Effect) : ∃ (final : Host) (record : Json.Fields)
    (line : Bytes),
    (Command.dispatch (.run "leave" [] false false) Run.smallContext
      { dir := Run.smallContext.pluginDir }).result (leavingHost told) =
        (.error (.interrupted wish), final) ∧
    Utf8.encode? (Json.obj record).write = some line ∧
    record.find? "status" = some (.str "error") ∧
    final.disk.contentOrEmpty "h.jsonl" = line ++ [10] := by
  obtain ⟨more, hget⟩ := result_get_leaving told
  have u := leavingRun_underWay (told ++ more)
  obtain ⟨w, k, hw, he⟩ := leavingRun_ends (told ++ more)
  have houtcome : w.outcome = .failure Run.interruptedMessage := by
    unfold Run.Work.outcome
    rw [hw]
  have hstorable : leavingRun.Storable w := by
    refine ⟨⟨⟨_, rfl⟩, fun output ho => ?_, .inl rfl, by decide⟩, ?_⟩
    · cases houtcome.symm.trans ho
    · rw [houtcome]
      exact of_decide_eq_true rfl
  have hask := Gate.askTerminal_keeps (Host.frame_extends fun _ => True) fun _ _ => trivial
  have hnowhere : ∀ p, (loadedHost (told ++ more)).target.file? ≠ some p := fun p hp => by cases hp
  have hdisk : (loadedHost (told ++ more)).disk = leavingDisk := rfl
  generalize loadedHost (told ++ more) = host at *
  obtain ⟨id, line, final, -, hline, -, hgains, -, hresult⟩ := Run.result_kept u he hask
    (fun p hp => absurd hp (hnowhere p)) (hdisk ▸ leavingDisk_writable) hstorable
  rw [hw] at hresult
  obtain ⟨before, after, hcontent, hempty⟩ := hgains
  obtain ⟨rfl, rfl⟩ := hempty fun ⟨p, _, hp, _⟩ => hnowhere p hp
  refine ⟨final, _, line, ?_, hline, ?_, ?_⟩
  · exact (Job.result_bind_ok hget _).trans hresult
  · rw [Run.find?_stored (by decide), houtcome]
    rfl
  · have hnone : leavingDisk.contentOrEmpty "h.jsonl" = [] := by decide +kernel
    rw [hcontent, hdisk, hnone]
    simp

/-- A process whose command wishes to exit ends with what it has wished for. Its record has a
failure, and it tells of its beginning but never of its end. -/
theorem leaves_untold : ∃ (final : Host) (record : Json.Fields) (line : Bytes),
    (main smallEnvironment ["leave"]).result (leavingHost []) =
      (.error (.interrupted (.exit (.int 0) "0")), final) ∧
    Utf8.encode? (Json.obj record).write = some line ∧
    record.find? "status" = some (.str "error") ∧
    final.disk.contentOrEmpty "h.jsonl" = line ++ [10] ∧
    (∃ x ∈ final.trace, x.Logs "app_start") ∧ ∀ x ∈ final.trace, ¬ x.Logs "app_stop" := by
  have hparsed : Command.Line.parse (Command.route Command.Form.known ["leave"]) =
      .ok ⟨none, some (.run "leave" [] false false)⟩ := by
    decide +kernel
  have hmain : main smallEnvironment ["leave"] =
      begin (.run "leave" [] false false) none smallEnvironment := by
    unfold main
    rw [hparsed]
    rfl
  have hctx : Context.ofEnvironment smallEnvironment (leavingHost []).home =
      .ok Run.smallContext := rfl
  have hfile : logFile none Run.smallContext = none := rfl
  have hopened : (Job.setTarget none).result (leavingHost []) = (.ok (), leavingHost []) := rfl
  have hread : Job.readTimer.result (leavingHost []) = (.ok (.zero false), leavingHost []) := rfl
  obtain ⟨start, hstart, hlog⟩ : ∃ start : Effect, start.Logs "app_start" ∧
      (logStart (.run "leave" [] false false) Run.smallContext none).result (leavingHost []) =
        (.ok (), leavingHost [start]) :=
    ⟨_, logs_started _ _ _ .nowhere ⟨0⟩, rfl⟩
  obtain ⟨final, record, line, hresult, hline, hstatus, hcontent⟩ :=
    result_dispatch_leaving [start]
  obtain ⟨⟨es, hes, hinner⟩, -⟩ := Command.dispatch_stores (.run "leave" [] false false)
    Run.smallContext Run.smallContext.pluginDir (leavingHost [start])
  rw [hresult] at hes
  refine ⟨final, record, line, ?_, hline, hstatus, hcontent, ⟨start, ?_, hstart⟩, fun x hx => ?_⟩
  · rw [hmain, result_begin _ none hctx, hfile, Job.result_bind_ok hopened]
    unfold live
    rw [Job.result_bind_ok hread, Job.result_bind_ok hlog,
      Job.result_bind_ok (Job.result_settle _ _), hresult]
    rfl
  · rw [hes]
    exact List.mem_append_left _ List.mem_cons_self
  · rw [hes] at hx
    rcases List.mem_append.1 hx with hx | hx
    · rw [List.mem_singleton.1 hx]
      exact fun hstop => absurd (Option.some.inj (hstart.symm.trans hstop)) (by decide)
    · exact (hinner x hx).2

end Invocation
end ClipActions
