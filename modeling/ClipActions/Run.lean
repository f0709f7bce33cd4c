import ClipActions.Agent.Client
import ClipActions.Gate
import ClipActions.History
import ClipActions.Model.Client

/-!
Runs: one action on one text, from end to end. The action is resolved, the text and the configuration
are acquired, the gate is passed, the work is done and its output is delivered. From the moment when
all three are in hand exactly one record is kept, however the run ends; that the record cannot be
written changes nothing but a warning.
-/
namespace ClipActions

/-- What a caller asks of a run. -/
structure Run.Options where
  args : List Json := []
  /-- Whether the output goes to the clipboard too. -/
  copy : Bool := false
  /-- Whether the user has agreed beforehand that the text may be sent. -/
  yes : Bool := false
  /-- A text in the place of the acquired one. -/
  input : Option Json := none
  source : Option Text := none
  trigger : Option Text := none
  /-- The identifier of the record that is replayed. -/
  replayOf : Json := .null

inductive Run.Outcome where
  | success (output : Json)
  | failure (error : Text)

structure Run.Provenance where
  action : Text
  source : Text
  trigger : Text
  deriving DecidableEq, Repr

/-- A run that is under way: all that is fixed before the gate. -/
structure Run where
  action : Action
  options : Run.Options
  provenance : Run.Provenance
  provider : Provider
  text : Json
  config : Json

namespace Run

/-- The source of a run that a person started. -/
def manual : Text := "manual"

/-- The source of a run that the agent started. -/
def daemon : Text := "daemon"

def present? (t : Option Text) : Option Text := t.filter (!·.isEmpty)

/-- Where a run comes from, by its options first and by its surroundings second. -/
def Provenance.of (a : Action) (o : Options) (ctx : Context) : Provenance :=
  let source := (present? o.source).getD (if ctx.daemon then daemon else manual)
  let usual : Text := if source = manual then "cli" else "daemon"
  { action := a.id, source
    trigger := (present? o.trigger).getD ((present? ctx.trigger).getD usual) }

namespace Outcome

def status : Outcome → Text
  | success _ => "success"
  | failure _ => "error"

/-- The field of a record that tells how the run ended. -/
def field : Outcome → Text × Json
  | success output => ("output", output)
  | failure error => ("error", .str error)

end Outcome

def interruptedMessage : Text := "Run interrupted"

/-- The work of an action and how long it took, whatever its end. -/
structure Work where
  latency : Int := 0
  ending : Except Halt Json

variable [Runtime]

/-- The text to work on, which must not be empty. -/
def acquireText (o : Options) (ctx : Context) : Job Json := do
  let text ← match o.input with
    | some j => pure j
    | none => Agent.inputText ctx
  if text.truthy then return text else Job.fail .emptyInput

/-- The text and the configuration. Both are asked for even if one fails; the text's failure is
the one that counts. -/
def acquire (o : Options) (ctx : Context) : Job (Json × Json) := do
  let text ← Job.settle (acquireText o ctx)
  let config ← Job.settle (Agent.config ctx)
  match text, config with
  | .ok text, .ok config => return (text, config)
  | .error h, _ | _, .error h => throw h

def task (r : Run) : Task := ⟨r.text, r.options.args, r.config⟩

/-- What comes before the work: the gate, the message, and the client, in this order. -/
def enter (r : Run) (daemon : Bool) (ask : Gate.Asker) : Job Model.Client := do
  Gate.pass r.config { yes := r.options.yes, daemon, ask }
  if let some message := present? r.action.progress then Job.say (message ++ "\n")
  Model.Client.make r.provider

/-- The work itself. Of a failure its label is kept. -/
def work (r : Run) (c : Model.Client) : Job Work := do
  let start ← Job.readTimer
  let ending ← Job.settle (Model.runProgram c (r.action.run r.task))
  let latency ← Job.since start
  return { latency, ending := ending.mapError fun
    | .failed f => .failed (.execution f.label)
    | .interrupted i => .interrupted i }

def ruleSymbol : Symbol := .char '─'

/-- A header, a rule of the same length, and the output. -/
def printOutput (a : Action) (output : Json) : Job Unit := do
  Job.say (a.title ++ ":")
  Job.say (List.replicate a.title.length ruleSymbol)
  Job.say output.display

/-- The output is printed, and copied if that is asked for. -/
def deliver (r : Run) (output : Json) : Job Unit := do
  printOutput r.action output
  if r.options.copy then
    Agent.copy output
    Job.say "\n(Copied to clipboard)"

/-- The run from the gate to the delivery. Whatever stops it is a part of the result. -/
def proceed (r : Run) (daemon : Bool) (ask : Gate.Asker) : Job Work := do
  match ← Job.settle (r.enter daemon ask >>= r.work) with
  | .error h => return { ending := .error h }
  | .ok w => match w.ending with
    | .error _ => return w
    | .ok output =>
      match ← Job.settle (r.deliver output) with
      | .ok () => return w
      | .error h => return { w with ending := .error h }

/-- How a run ended, without the secrets in its error. -/
def Work.outcome (w : Work) : Outcome :=
  match w.ending with
  | .ok output => .success output
  | .error (.failed f) => .failure (Secret.redact f.label)
  | .error (.interrupted _) => .failure interruptedMessage

def record (r : Run) (latency : Int) (outcome : Outcome) : Json.Fields :=
  let known : Json.Fields := [
    ("action", .str r.provenance.action),
    ("args", .arr r.options.args),
    ("source", .str r.provenance.source),
    ("trigger", .str r.provenance.trigger),
    ("provider", .str r.provider.type),
    ("model", .str r.provider.model),
    ("latency_ms", .int latency),
    ("status", .str outcome.status),
    ("copy", .bool r.options.copy),
    ("input", r.text),
    outcome.field]
  if r.options.replayOf.truthy then known.put "replay_of" r.options.replayOf else known

/-- A document as an entry of the history. -/
def entry (record : Json.Fields) : History.Entry := Value.ofJsonFields record

/-- The event of a run whose record is stored under an identifier. -/
def logRun (r : Run) (id : Data) (latency : Int) (outcome : Outcome) : Job Unit := do
  let inputSize ← Job.check r.text.size
  let (level, output, error) : Log.Level × Json × Data := match outcome with
    | .success output => (Log.Level.info, output, .null)
    | .failure error => (Log.Level.warning, .str [], .str error)
  let outputSize ← Job.check output.size
  let replay : Json := if r.options.replayOf.truthy then r.options.replayOf else .null
  Job.log {
    name := "action_run", level
    fields := [
      ("run_id", id),
      ("action", .str r.provenance.action),
      ("status", .str outcome.status),
      ("source", .str r.provenance.source),
      ("trigger", .str r.provenance.trigger),
      ("provider", .str r.provider.type),
      ("model", .str r.provider.model),
      ("latency_ms", .int latency),
      ("input_chars", .int inputSize),
      ("output_chars", .int outputSize),
      ("replay_of", .ofJson replay),
      ("error", error)] }

/-- The record of a run is stored and the run is logged; a record that cannot be stored is warned
about, unless it is nested too deeply. -/
def keep (r : Run) (file : Path) (latency : Int) (outcome : Outcome) : Job Unit := do
  let stored ← Job.attempt (History.append file (entry (r.record latency outcome)))
  match stored with
  | .ok e => r.logRun ((Value.atName? e "id").getD .null) latency outcome
  | .error .tooDeepToWrite => Job.fail .tooDeepToWrite
  | .error f =>
    Job.warn ("Failed to write history record: " ++ f.message) "history_write_failed"
      [("history_file", .path file), ("error_type", .str f.kind)]

/-- A message on the standard error that a command has failed. -/
def reportError (message : Text) : Job Unit := Job.complain ("Error: " ++ message)

/-- A run under way, to its end: the exit code. An interruption passes once the run is kept. -/
def finish (r : Run) (ctx : Context) (ask : Gate.Asker) : Job Int := do
  let w ← r.proceed ctx.daemon ask
  r.keep ctx.historyFile w.latency w.outcome
  match w.ending with
  | .error (.interrupted i) => throw (.interrupted i)
  | _ => match w.outcome with
    | .success _ => return 0
    | .failure error =>
      reportError error
      return 1

/-- The run of an action on what is acquired for it: the exit code. -/
def start (a : Action) (o : Options) (ctx : Context) (ask : Gate.Asker) : Job Int := do
  match ← Job.attempt (acquire o ctx) with
  | .error f =>
    reportError (Secret.redact f.message)
    return 1
  | .ok (text, config) =>
    let provider ← Job.check (Provider.ofConfig (.ofJson config))
    let r : Run :=
      { action := a, options := o, provenance := .of a o ctx, provider, text, config }
    r.finish ctx ask

/-- What is said about a name that no action has. -/
def reportUnknown (registry : Registry) (name : Json) : Job Unit := do
  Job.log {
    name := "action_unknown", level := Log.Level.warning
    fields := [
      ("action", .ofJson name), ("available", .list (registry.ids.map .str))] }
  reportError (Failure.message (.unknownAction name.display))
  Job.complain ("Available actions: " ++ Text.joinWith ", " registry.ids)

def perform (registry : Registry) (name : Json) (o : Options) (ctx : Context)
    (ask : Gate.Asker := Gate.askTerminal) : Job Int := do
  match ← Job.check (registry.lookUp name) with
  | none =>
    reportUnknown registry name
    return 1
  | some a => start a o ctx ask

end Run
end ClipActions
