import ClipActions.Disk.Name

/-!
Where and how a run takes place, as the variables of its environment say. They are read once and
handed to whatever needs them.
-/
namespace ClipActions

abbrev Environment := List (Text × Text)

/-- The settings of a run that come from its environment. -/
structure Context where
  daemon : Bool
  trigger : Option Text
  /-- A text in the place of the clipboard's; an empty one counts too. -/
  input : Option Text
  historyFile : Path
  pluginDir : Path
  logDir : Path
  socket : Path
  logFile : Option Path
  deriving DecidableEq, Repr

namespace Context

def application : Text := "clipboard-ai"

/-- The directory shared with the agent, as it is written. -/
def dataDirText : Text := "~/." ++ application

def dataDir (home : Path) : Path := home.child ("." ++ application)

def historyName : Text := "history.jsonl"

def pluginsName : Text := "actions"

def socketName : Text := "agent.sock"

/-! The variables that count. -/

def daemonVariable : Text := "CBAI_DAEMON_MODE"

def triggerVariable : Text := "CBAI_TRIGGER"

def inputVariable : Text := "CBAI_INPUT_TEXT"

def historyVariable : Text := "CBAI_HISTORY_FILE"

def pluginsVariable : Text := "CBAI_PLUGIN_DIR"

def logDirVariable : Text := "CBAI_LOG_DIR"

def socketVariable : Text := "CBAI_SOCKET_PATH"

def logVariable : Text := "CBAI_CLI_LOG"

/-- A path with the user's directory in the place of a leading `~`. What follows the `~` of somebody
else is asked of the system, which takes names alone. -/
def pathOf (home : Path) (t : Text) : Except Failure Path :=
  let p := Path.ofText t
  match p.expandHome? home with
  | some p => .ok p
  | none => .error ((Disk.Name.fault? ((p.parts.headD []).drop 1)).getD .homeUnknown)

def value? (env : Environment) (name : Text) : Option Text := env.lookup name

def present? (env : Environment) (name : Text) : Option Text :=
  (value? env name).filter (!·.isEmpty)

/-- The path in a variable, or another one if it holds none. -/
def pathFrom (home : Path) (env : Environment) (name : Text) (otherwise : Path) :
    Except Failure Path :=
  match present? env name with
  | some t => pathOf home t
  | none => .ok otherwise

def ofEnvironment (env : Environment) (home : Path := Path.usualHome) : Except Failure Context := do
  let data := dataDir home
  return {
    daemon := value? env daemonVariable = some (Text.ofString "true")
    trigger := present? env triggerVariable
    input := value? env inputVariable
    historyFile := ← pathFrom home env historyVariable (data.child historyName)
    pluginDir := ← pathFrom home env pluginsVariable (data.child pluginsName)
    logDir := ← pathFrom home env logDirVariable data
    socket := ← pathFrom home env socketVariable (data.child socketName)
    logFile := ← (present? env logVariable).mapM (pathOf home) }

end Context
end ClipActions
