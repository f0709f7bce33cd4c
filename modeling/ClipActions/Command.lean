import ClipActions.Action.Builtin
import ClipActions.AgentLog
import ClipActions.Command.Help
import ClipActions.Command.Matching

/-!
The commands of the program and how they are written on its command line. Each built-in action is a
command too, by any of its names; the name of any other action stands for running that action.
-/
namespace ClipActions

inductive Command where
  | run (action : Text) (args : List Text) (copy yes : Bool)
  | actions
  /-- The limit is missing if the line asks for one and gives none. -/
  | history (limit : Option Int)
  | rerun (id : Text) (copy yes : Bool)
  | status
  | clipboard
  | config
  | logs (tail : Option Int) (log : AgentLog)
  deriving DecidableEq, Repr

namespace Command

def name : Command → Text
  | run .. => "run"
  | actions => "actions"
  | history _ => "history"
  | rerun .. => "rerun"
  | status => "status"
  | clipboard => "clipboard"
  | config => "config"
  | logs .. => "logs"

def program : Text := "cbai"

def version : Text := "0.1.0"

def defaultLimit : Int := 20

def defaultTail : Int := 100

/-- What the bindings of a command line say. -/
abbrev Bindings := List Binding

namespace Bindings

def has (bs : Bindings) (f : Flag) : Bool :=
  bs.any fun
    | .flag g _ => g = f
    | .slot .. => false

/-- What an option is given where it is used last. -/
def given? (bs : Bindings) (f : Flag) : Option Given :=
  bs.reverse.findSome? fun
    | .flag g v => if g = f then some v else none
    | .slot .. => none

/-- The number that an option is given, or another one if it is not used. -/
def whole? (bs : Bindings) (f : Flag) (otherwise : Int) : Option Int :=
  match given? bs f with
  | some (.whole n) => some n
  | some .emptied => none
  | _ => some otherwise

/-- The text that an option is given, if it is used; it may be used without one. -/
def text? (bs : Bindings) (f : Flag) : Option (Option Text) :=
  match given? bs f with
  | some (.text t) => some (some t)
  | some .emptied => some none
  | _ => none

def values (bs : Bindings) (s : Slot) : List Text :=
  (bs.findSome? fun
    | .slot t values => if t = s then some values else none
    | .flag .. => none).getD []

def value (bs : Bindings) (s : Slot) : Text := (values bs s).headD []

end Bindings

def copyFlag : Flag where
  names := ["-c", "--copy"]
  about := "Copy the result to the clipboard"

def yesFlag : Flag where
  names := ["-y", "--yes"]
  about := "Skip the safe-mode confirmation prompt"

def limitFlag : Flag where
  names := ["-n", "--limit"]
  purpose := .whole
  value := "LIMIT"
  about := "Number of records to show (default: 20)"

def tailFlag : Flag where
  names := ["-n", "--tail"]
  purpose := .whole
  value := "TAIL"
  about := "Number of lines to show (default: 100)"

def errorsFlag : Flag where
  names := ["--err"]
  about := "Show the agent error log"

def logFlag : Flag where
  names := ["-l", "--log"]
  purpose := .text
  value := "LOG"
  about := "Path to log file for structured CLI logging (optional)"

def versionFlag : Flag where
  names := ["--version"]
  purpose := .version (program ++ " " ++ version)
  about := "show program's version number and exit"

def actionSlot : Slot := ⟨"action", .one, "Action id or alias"⟩

def argsSlot : Slot := ⟨"args", .many, "Extra arguments passed to the action"⟩

def idSlot : Slot := ⟨"id", .one, "History record id"⟩

def commandSlot : Slot := ⟨"<command>", .command, []⟩

/-- A command as it is written: its names, what is said about it, and what follows it. -/
structure Form where
  name : Text
  aliases : List Text := []
  about : Text
  flags : List Flag := []
  slots : List Slot := []
  /-- The command that the bindings of what follows make. -/
  make : Bindings → Command

namespace Form

def names (f : Form) : List Text := f.name :: f.aliases

def grammar (f : Form) : Grammar where
  program := program ++ " " ++ f.name
  flags := Flag.help :: f.flags
  slots := f.slots

def row (f : Form) : Row :=
  let others : Text :=
    if f.aliases.isEmpty then [] else " (" ++ Text.joinWith ", " f.aliases ++ ")"
  ⟨2 * Help.indent, f.name ++ others, f.about⟩

def plain (c : Command) (about : Text) : Form where
  name := c.name
  about := about
  make := fun _ => c

def run : Form where
  name := "run"
  about := "Run any action, including plugins"
  flags := [copyFlag, yesFlag]
  slots := [actionSlot, argsSlot]
  make := fun bs =>
    .run (bs.value actionSlot) (bs.values argsSlot) (bs.has copyFlag) (bs.has yesFlag)

/-- Running a built-in action by its own name. -/
def shortcut (a : Action) : Form where
  name := a.id
  aliases := a.aliases
  about := a.description
  flags := [copyFlag, yesFlag]
  slots := [argsSlot]
  make := fun bs => .run a.id (bs.values argsSlot) (bs.has copyFlag) (bs.has yesFlag)

def history : Form where
  name := "history"
  about := "Show recent action runs"
  flags := [limitFlag]
  make := fun bs => .history (bs.whole? limitFlag defaultLimit)

def rerun : Form where
  name := "rerun"
  about := "Replay a run from history"
  flags := [copyFlag, yesFlag]
  slots := [idSlot]
  make := fun bs => .rerun (bs.value idSlot) (bs.has copyFlag) (bs.has yesFlag)

def logs : Form where
  name := "logs"
  about := "Show agent logs"
  flags := [tailFlag, errorsFlag]
  make := fun bs =>
    .logs (bs.whole? tailFlag defaultTail) (if bs.has errorsFlag then .errors else .output)

/-- All commands in the order of the help. -/
def all : List Form :=
  [run] ++ Action.builtins.map shortcut ++
    [plain actions "List built-in and plugin actions", history, rerun,
      plain status "Show agent status", plain clipboard "Show current clipboard content",
      plain config "Show agent configuration", logs]

def ofName? (name : Text) : Option Form := all.find? (·.names.contains name)

def known : List Text := all.flatMap names

end Form

def grammar : Grammar where
  program := program
  flags := [Flag.help, versionFlag, logFlag]
  slots := [commandSlot]

/-- The help of the program. -/
def overview : Help :=
  grammar.help "cbai - AI actions on your clipboard" (Form.all.map Form.row)

/-- A command line: where the log goes, if it says so, and the command if there is one. The option
for the log may be used without a value. -/
structure Line where
  log : Option (Option Text)
  command : Option Command
  deriving DecidableEq, Repr

/-- The command in the tokens that begin with its name, and the tokens that nobody knows. -/
def ofTokens (name : Text) (rest : List Text) : Except Stop (Command × List Text) :=
  match Form.ofName? name with
  | none => .error (.fault program (.unknownCommand commandSlot.name name Form.known))
  | some form => do
    let taken ← form.grammar.take rest
    return (form.make taken.bindings, taken.extras)

/-- The meaning of a command line. -/
def Line.parse (tokens : List Text) : Except Stop Line := do
  let taken ← grammar.take tokens
  let log := Bindings.text? taken.bindings logFlag
  let (command, extras) ← match Bindings.values taken.bindings commandSlot with
    | [] => pure (none, [])
    | name :: rest => (fun (c, extras) => (some c, extras)) <$> ofTokens name rest
  match taken.extras ++ extras with
  | [] => return { log, command }
  | unknown => throw (.fault program (.unrecognized unknown))

/-- Whether a token is an option whose value is the token after it. -/
def isLogOption (t : Text) : Bool := logFlag.names.contains t

/-- The first token that is no option is taken for an action unless it is a command. -/
def route (known : List Text) : List Text → List Text
  | [] => []
  | [t] => if isLogOption t || t.head? = some (.char '-') || known.contains t then [t]
    else [Form.run.name, t]
  | t :: u :: rest =>
    if isLogOption t then t :: u :: route known rest
    else if t.head? = some (.char '-') then t :: route known (u :: rest)
    else if known.contains t then t :: u :: rest
    else Form.run.name :: t :: u :: rest

/-- What a stop says on the standard output or, if it is a fault, on the standard error. -/
def Stop.text : Stop → Text
  | .fault program f => program ++ ": error: " ++ f.message ++ "\n"
  | .help g => if g = grammar then overview.text else g.help.text
  | .version v => v ++ "\n"

def Stop.exitCode : Stop → Int
  | .fault .. => 2
  | .help _ | .version _ => 0

end Command
end ClipActions
