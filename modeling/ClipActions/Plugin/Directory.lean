import ClipActions.Host
import ClipActions.Plugin

/-!
The plugin directory. Each file in it is loaded by itself; one that cannot be loaded or exports no
action is reported and left out.
-/
namespace ClipActions.Plugin

def fileExtension : Text := ".py"

def files (dir : Path) (entries : List (Text × Node)) : List Path :=
  let names := entries.filterMap fun
    | (name, .file _) => if (Path.splitName name).2 = fileExtension then some name else none
    | (_, .directory) => none
  (Text.sort names).map dir.child

/-- Why a plugin file yields no action. -/
inductive Refusal where
  | halted (h : Halt)
  | noAction

/-- The action of a plugin file, or why there is none. Only a halt that loading may not swallow
passes. -/
def judge (e : Export) : Except Halt (Except Refusal Action) :=
  match e.halt with
  | some (.failed f) => .ok (.error (.halted (.failed f)))
  | some (.interrupted (.exit code message)) =>
    .ok (.error (.halted (.interrupted (.exit code message))))
  | some h => .error h
  | none => match exported? e.attributes with
    | some a => .ok (.ok a)
    | none => .ok (.error .noAction)

variable [Runtime]

def warnRefused (file : Path) : Refusal → Job Unit
  | .halted h =>
    Job.warn ("Failed to load plugin " ++ file.name ++ ": " ++ h.message) "plugin_load_failed"
      [("plugin_file", .path file), ("error_type", .str h.kind)]
  | .noAction =>
    Job.warn ("Skipping plugin " ++ file.name ++ ": invalid action export") "plugin_skipped"
      [("plugin_file", .path file), ("reason", .str "invalid_action_export")]

/-- The action of a plugin file, if it has one. -/
def loadFile (index : Nat) (file : Path) : Job (Option Action) := do
  match judge ((← get).load (moduleName index file) file) with
  | .error h => throw h
  | .ok (.ok a) => return some a
  | .ok (.error refusal) =>
    warnRefused file refusal
    return none

def loadFiles (index : Nat) : List Path → Job (List Action)
  | [] => return []
  | file :: rest => do
    let first ← loadFile index file
    return first.toList ++ (← loadFiles (index + 1) rest)

/-- The actions of the plugin files in a directory. A directory that cannot be listed has none. -/
def loadDirectory (dir : Path) : Job (List Action) := do
  let disk := (← get).disk
  if !(← Job.take (disk.isDirectory dir)) then return []
  match disk.list dir with
  | .ok entries => loadFiles 0 (files dir entries)
  | .error f =>
    Job.warn ("Could not read plugin directory " ++ dir.text ++ ": " ++ f.message)
      "plugin_load_failed" [("plugin_file", .path dir), ("error_type", .str f.kind)]
    return []

end ClipActions.Plugin
