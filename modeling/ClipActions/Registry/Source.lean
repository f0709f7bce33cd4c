import ClipActions.Action.Builtin
import ClipActions.Plugin.Directory

/-! Where the registry of a process comes from: it is built once, at its first use. -/
namespace ClipActions.Registry

variable [Runtime]

/-- What a registry is built from. -/
structure Source where
  dir : Path
  builtin : List Action := Action.builtins
  /-- How the plugin actions of a directory are found. -/
  load : Path → Job (List Action) := Plugin.loadDirectory

/-- The warning about a plugin action that is left out. -/
def warnConflict (v : Verdict) : Job Unit := do
  let quoted := v.conflicts.map fun (name : Text) => Symbol.char '"' :: name ++ [.char '"']
  Job.warn
    ("Skipping plugin action \"" ++ v.action.id ++ "\": name conflict with " ++
      Text.joinWith ", " quoted)
    "plugin_conflict"
    [("action", .str v.action.id), ("conflicts", .list (v.conflicts.map .str))]

/-- The plugin actions that join those that always stay; the others are reported. -/
def merge (kept plugins : List Action) : Job (List Action) := do
  let vs := verdicts kept plugins
  (vs.filter (!·.accepted)).forM warnConflict
  return joining vs

def construct (actions : List Action) : Job Registry :=
  match create actions with
  | .ok r => pure r
  | .error f => Job.fail f

namespace Source

/-- The registry of the built-in actions and the plugin actions that may join them. -/
def build (s : Source) : Job Registry := do
  let plugins ← s.load s.dir
  let joined ← merge s.builtin plugins
  let r ← construct (s.builtin ++ joined)
  Job.log {
    name := "registry_built"
    fields := [
      ("builtin_count", .int s.builtin.length), ("plugin_count", .int joined.length),
      ("rejected_count", .int (plugins.length - joined.length : Nat)),
      ("plugin_dir", .path s.dir)] }
  return r

/-- The registry of the process, which is built if it is not there yet. -/
def get (s : Source) : Job Registry := do
  match (← MonadState.get).registry with
  | some r => return r
  | none =>
    let r ← s.build
    modify fun host => { host with registry := some r }
    return r

end Source
end ClipActions.Registry
