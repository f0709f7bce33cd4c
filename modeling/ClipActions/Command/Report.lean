import ClipActions.AgentLog
import ClipActions.Rerun

/-!
The commands that report: on the agent, on the actions, on the history and on the agent's own log
files. Each prints what it has found, or one error, and ends with an exit code.
-/
namespace ClipActions.Report

/-- An error of the agent is reported; any other failure passes. -/
def onAgent (ask : Job Json) (print : Json → Job Unit) : Job Int := do
  match ← Job.attempt ask with
  | .ok reply =>
    print reply
    return 0
  | .error f =>
    if !f.isAgent then Job.fail f
    Run.reportError (Secret.redact f.message)
    return 1

variable [Runtime]

def sayField (label : Text) (j : Json) (name : Text) (unit : Text := []) : Job Unit := do
  let v ← Job.check (j.get name)
  Job.say (label ++ v.display ++ unit)

/-- A line with the value of a field, or with another text if it does not count as present. -/
def sayPresent (label : Text) (j : Json) (name otherwise : Text) : Job Unit := do
  let v ← Job.check (j.get name)
  Job.say (label ++ (v.orElse (.str otherwise)).display)

/-- A line that says whether a field counts as true. -/
def sayFlag (label : Text) (j : Json) (name : Text) : Job Unit := do
  let v ← Job.check (j.get name)
  Job.say (label ++ (if v.truthy then Text.ofString "true" else "false"))

def block (j : Json) (name : Text) : Job Json := return (← Job.check (j.get name)).orEmpty

def printStatus (status : Json) : Job Unit := do
  let clipboard ← block status "clipboard"
  Job.say "clipboard-ai agent"
  Job.say "──────────────────"
  sayField "Status:  " status "status"
  sayField "Version: " status "version"
  sayField "Uptime:  " status "uptime"
  Job.say []
  Job.say "Clipboard:"
  sayField "  Type:      " clipboard "type"
  sayPresent "  Preview:   " clipboard "text" "(empty)"
  sayPresent "  Timestamp: " clipboard "timestamp" "N/A"

def status (ctx : Context) : Job Int := onAgent (Agent.status ctx) printStatus

def printClipboard (clipboard : Json) : Job Unit := do
  sayField "Type: " clipboard "type"
  sayField "Length: " clipboard "length" " chars"
  sayField "Timestamp: " clipboard "timestamp"
  Job.say []
  Job.say "Content:"
  Job.say "────────"
  sayPresent [] clipboard "text" "(empty)"

def clipboard (ctx : Context) : Job Int := onAgent (Agent.clipboard ctx) printClipboard

def printTrigger (name : Text) (action : Json) : Job Unit := do
  let enabled ← Job.check (action.get "enabled")
  let mark : Text := if enabled.truthy then "✓" else "✗"
  sayField ("  " ++ mark ++ .char ' ' :: name ++ ": ") action "trigger"

def printConfig (config : Json) : Job Unit := do
  let provider ← block config "provider"
  let settings ← block config "settings"
  let actions ← block config "actions"
  Job.say "clipboard-ai configuration"
  Job.say "──────────────────────────"
  Job.say []
  Job.say "Provider:"
  sayField "  Type:     " provider "type"
  sayField "  Model:    " provider "model"
  sayField "  Endpoint: " provider "endpoint"
  Job.say []
  Job.say "Settings:"
  sayField "  Poll interval:  " settings "poll_interval" "ms"
  sayFlag "  Safe mode:      " settings "safe_mode"
  sayFlag "  Notifications:  " settings "notifications"
  sayField "  Log level:      " settings "log_level"
  Job.say []
  Job.say "Actions:"
  (← Job.check actions.entries).forM fun (name, action) => printTrigger name action

def config (ctx : Context) : Job Int := onAgent (Agent.config ctx) printConfig

def actionLine (a : Action) : Text :=
  let aliases : Text :=
    if a.aliases.isEmpty then [] else " (" ++ Text.joinWith ", " a.aliases ++ ")"
  let origin : Text := if Action.builtins.any (·.id = a.id) then [] else " [plugin]"
  "  " ++ a.id ++ aliases ++ origin ++ ": " ++ a.description

/-- All actions in the order of their identifiers. -/
def actions (source : Registry.Source) : Job Int := do
  let registry ← source.get
  Job.say "Available actions"
  Job.say "─────────────────"
  registry.ids.forM fun id =>
    (registry.actions.filter (·.id = id)).forM fun a => Job.say (actionLine a)
  return 0

def recordLine (r : History.Record) : Text :=
  let field (name : Text) : Json := (Json.Fields.find? r name).getD .null
  let result : Text := if (field "status").same (.str "success") then "ok" else "error"
  let replay := field "replay_of"
  let replayed : Text := if replay.truthy then " replay:" ++ replay.display else []
  (field "id").display ++ " | " ++ (field "timestamp").display ++ " | " ++ result ++ " | " ++
    (field "source").display ++ " | " ++ (field "action").display ++ " | " ++
    (field "latency_ms").display ++ "ms" ++ replayed

/-- A fault of the file system is reported; any other failure passes. -/
def onDisk {α : Type} (job : Job α) (report : OsFault → Job Unit) (next : α → Job Int) : Job Int := do
  match ← Job.attempt job with
  | .ok a => next a
  | .error (.os fault) =>
    report fault
    return 1
  | .error f => Job.fail f

def reportFault (fault : OsFault) : Job Unit := Run.reportError fault.message

def history (limit : Json) (ctx : Context) : Job Int :=
  onDisk (History.read limit ctx.historyFile) reportFault fun records => do
    if records.isEmpty then
      Job.say "No history records found."
    else
      Job.say "Recent action runs"
      Job.say "──────────────────"
      records.forM fun r => Job.say (recordLine r)
    return 0

/-- The replay of the newest record with an identifier. -/
def rerun (id : Json) (copy yes : Bool) (ctx : Context) (source : Registry.Source) : Job Int :=
  onDisk (History.find? id ctx.historyFile) reportFault fun
    | some r => Rerun.perform r copy yes ctx source
    | none => do
      Run.reportError ("History record not found: " ++ id.display)
      return 1

def logs (tail : Data) (log : AgentLog) (ctx : Context) : Job Int := do
  match ← Job.attempt (log.tail tail ctx) with
  | .ok lines =>
    if lines.isEmpty then Job.say "No log entries found." else lines.forM Job.say
    return 0
  | .error f@.badTail | .error f@.nullByte | .error f@(.unencodable _) =>
    Run.reportError f.message
    return 1
  | .error (.os fault) =>
    Run.reportError ("Could not read " ++ (log.path ctx).text ++ ": " ++ fault.reason)
    return 1
  | .error f => Job.fail f

end ClipActions.Report
