import ClipActions.Registry.Source
import ClipActions.Run

/-! Replaying a recorded run with the action, the arguments and the input of its record. -/
namespace ClipActions.Rerun

def source : Text := "rerun"

/-- The options of the replay of a record. A record without an input has an empty one. -/
def options (r : History.Record) (copy yes : Bool) : Checked Run.Options := do
  let args ← ((Json.Fields.find? r "args").getD .null |>.orElse (.arr [])).elements
  let id ← (Json.obj r).need "id"
  let input := match Json.Fields.find? r "input" with
    | none => some (Json.str [])
    | some .null => none
    | some j => some j
  return {
    args, copy, yes, input
    source := some source
    trigger := some (source ++ ":" ++ id.display)
    replayOf := id }

variable [Runtime]

def perform (r : History.Record) (copy yes : Bool) (ctx : Context) (registry : Registry.Source) :
    Job Int := do
  let name ← Job.check ((Json.obj r).need "action")
  let o ← Job.check (options r copy yes)
  Run.perform (← registry.get) name o ctx

end ClipActions.Rerun
