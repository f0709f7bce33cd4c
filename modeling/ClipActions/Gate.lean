import ClipActions.Host
import ClipActions.Provider
import ClipActions.Text.Blank

/-!
The safe-mode gate. With safe mode on, a text goes to a cloud provider only if a flag says so or
somebody agrees; nothing that nobody watches is let through.
-/
namespace ClipActions.Gate

/-- Who is asked whether a text may be sent. -/
abbrev Asker := Text → Job Bool

/-- The terminal: a line that says `y` in either case agrees, anything else does not. -/
def askTerminal : Asker := fun message => do
  Job.emit (.complained (message ++ " [y/N] "))
  let answer := (← Job.readLine).trim
  return answer = "y" || answer = "Y"

/-- What the gate knows of the run that asks to pass. -/
structure Request where
  /-- The user has agreed beforehand. -/
  yes : Bool := false
  /-- Nobody watches the run. -/
  daemon : Bool := false
  ask : Asker := askTerminal

variable [Runtime]

def logDecision (level : Log.Level) (fields : List (Text × Data)) : Job Unit :=
  Job.log { name := "safe_mode_decision", level, fields }

def label (p : Provider) : Text :=
  if !p.type.isEmpty then p.type else (p.endpoint.filter (!·.isEmpty)).getD "unknown"

def judge (p : Provider) (request : Request) : Job Unit := do
  let name := label p
  if request.daemon then
    logDecision Log.Level.warning [("decision", .str "blocked_daemon"), ("provider", .str name),
      ("daemon_mode", .bool true), ("yes", .bool request.yes)]
    Job.fail (.blocked name)
  else if request.yes then
    logDecision Log.Level.info [("decision", .str "allowed_by_flag"), ("provider", .str name),
      ("yes", .bool true)]
  else if ← request.ask ("Safe mode: send clipboard to cloud provider \"" ++ name ++ "\"?") then
    logDecision Log.Level.info [("decision", .str "confirmed"), ("provider", .str name)]
  else
    logDecision Log.Level.warning [("decision", .str "declined"), ("provider", .str name)]
    Job.fail (.declined name)

/-- Passes, or fails with the reason why the call is held back. -/
def pass (config : Json) (request : Request) : Job Unit := do
  let settings := (← Job.check (config.get "settings")).orEmpty
  if (← Job.check (settings.get "safe_mode")).truthy then
    let p ← Job.check (Provider.ofConfig (.ofJson config))
    if Provider.isCloud p.type p.endpoint then judge p request

end ClipActions.Gate
