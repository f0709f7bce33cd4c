import ClipActions.Command
import ClipActions.Command.Report

/-!
The program from its command line to its exit code: the command line is understood, the log is
opened, the command is carried out, and its end is logged whichever way it ends.
-/
namespace ClipActions

namespace Command

variable [Runtime]

def dispatch (c : Command) (ctx : Context) (source : Registry.Source) : Job Int :=
  match c with
  | run action args copy yes => do
    Run.perform (← source.get) (.str action) { args := args.map .str, copy, yes } ctx
  | actions => Report.actions source
  | history limit => Report.history ((limit.map Json.int).getD (.arr [])) ctx
  | rerun id copy yes => Report.rerun (.str id) copy yes ctx source
  | status => Report.status ctx
  | clipboard => Report.clipboard ctx
  | config => Report.config ctx
  | logs tail log => Report.logs ((tail.map Value.int).getD (.list [])) log ctx

/-- A command that is known by its name alone cannot be carried out. -/
def dispatchName (name : Json) : Job Int := Job.fail (.unknownCommand name.display)

end Command

namespace Invocation

def interruptedCode : Int := 130

structure Begun where
  command : Command
  start : Double

inductive Reason where
  | normal
  | keyboard
  | fatal (kind message : Text)

namespace Reason

def text : Reason → Text
  | normal => "normal"
  | keyboard => "keyboard_interrupt"
  | fatal .. => "fatal_error"

def level : Reason → Log.Level
  | fatal .. => Log.Level.error
  | _ => Log.Level.info

def fields : Reason → List (Text × Data)
  | fatal kind message => [("error_type", .str kind), ("error", .str message)]
  | _ => []

end Reason

variable [Runtime]

def logStart (c : Command) (ctx : Context) (log : Option Text) : Job Unit :=
  Job.log {
    name := "app_start"
    fields := [
      ("command", .str c.name), ("daemon_mode", .bool ctx.daemon),
      ("log_file", (log.map Value.str).getD .null)] }

def logStop (b : Begun) (reason : Reason) (code : Int) : Job Unit := do
  let uptime ← Job.sinceTenth b.start
  let known : List (Text × Data) := [
    ("command", .str b.command.name), ("reason", .str reason.text), ("exit_code", .int code)]
  let last : List (Text × Data) := [("uptime_ms", .float uptime)]
  Job.log { name := "app_stop", level := reason.level, fields := known ++ reason.fields ++ last }

def stopFailed (b : Begun) (f : Failure) : Job Int := do
  let message := Secret.redact f.message
  Run.reportError message
  logStop b (.fatal f.kind message) 1
  Job.logRecord {
    level := Log.Level.error, message := "Fatal error: " ++ message, error := some (.failed f) }
  return 1

/-- The end of a process whose command has ended in some way. A wish to exit is granted at once. -/
def stop (b : Begun) : Except Halt Int → Job Int
  | .ok code => do
    logStop b .normal code
    return code
  | .error (.failed f) => stopFailed b f
  | .error (.interrupted (.keyboard _)) => do
    logStop b .keyboard interruptedCode
    Job.complain "\nInterrupted"
    return interruptedCode
  | .error h => throw h

def begin (c : Command) (log : Option Text) (env : Environment) : Job Int := do
  let ctx ← match Context.ofEnvironment env (← get).home with
    | .ok ctx => pure ctx
    | .error f => Job.fail f
  let log : Option Text := (log.filter (!·.isEmpty)).orElse fun _ => ctx.logFile.map (·.text)
  Job.setTarget log
  let b : Begun := ⟨c, ← Job.readTimer⟩
  logStart c ctx log
  stop b (← Job.settle (c.dispatch ctx { dir := ctx.pluginDir }))

/-- The program, told what to do by the tokens of a command line: the exit code. -/
def main (env : Environment) (tokens : List Text) : Job Int := do
  match Command.Line.parse (Command.route Command.Form.known tokens) with
  | .error s =>
    match s with
    | .fault .. => Job.emit (.complained s.text)
    | .help _ | .version _ => Job.emit (.printed s.text)
    return s.exitCode
  | .ok { command := none, .. } =>
    Job.emit (.printed Command.overview.text)
    return 1
  | .ok { command := some c, log } => begin c log.join env

end Invocation
end ClipActions
