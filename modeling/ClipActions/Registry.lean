import ClipActions.Action

/-!
Registries: actions among which every name belongs to one. A strict construction refuses a clash of
names; merging instead leaves out every plugin action with a name that is in use.
-/
namespace ClipActions

structure Registry where
  actions : List Action

namespace Registry

/-- The action that has a name. -/
def owner? (actions : List Action) (name : Text) : Option Action :=
  actions.find? (·.names.contains name)

/-- The first name of an action that belongs to one of the actions before it, and to which. -/
def clash? (earlier : List Action) (a : Action) : Option (Text × Action) :=
  a.names.findSome? fun name => (owner? earlier name).map (name, ·)

/-- One more action, if none before it has its identifier or any of its names. -/
def add (earlier : List Action) (a : Action) : Except Failure (List Action) :=
  if earlier.any (·.id = a.id) then .error (.duplicateId a.id)
  else match clash? earlier a with
    | some (name, owner) => .error (.nameTaken name a.id owner.id)
    | none => .ok (earlier ++ [a])

/-- The registry of actions whose names do not clash. -/
def create (actions : List Action) : Except Failure Registry := mk <$> actions.foldlM add []

def resolve (r : Registry) (name : Text) : Option Action := owner? r.actions name

/-- The action that a document names. What cannot name anything is misused. -/
def lookUp (r : Registry) (name : Json) : Checked (Option Action) :=
  match name with
  | .str t => .ok (r.resolve t)
  | .arr _ | .obj _ => .error (.unhashable name.typeName)
  | _ => .ok none

def ids (r : Registry) : List Text := Text.sort (r.actions.map (·.id))

def names (r : Registry) : List Text := Text.sort (r.actions.flatMap (·.names)).eraseDups

/-- An action that may join others, and those of its names that are in use. -/
structure Verdict where
  action : Action
  conflicts : List Text

namespace Verdict

def accepted (v : Verdict) : Bool := v.conflicts.isEmpty

end Verdict

/-- The names of an action that are in use, each once and in its own order. -/
def conflicts (used : List Text) (a : Action) : List Text :=
  (a.names.filter used.contains).eraseDups

/-- What becomes of each action in turn; the names of an accepted one are in use after it. -/
def judge (used : List Text) : List Action → List Verdict
  | [] => []
  | a :: rest =>
    let v : Verdict := ⟨a, conflicts used a⟩
    v :: judge (if v.accepted then used ++ a.names else used) rest

/-- What becomes of plugin actions beside others that always stay. -/
def verdicts (kept plugins : List Action) : List Verdict := judge (kept.flatMap (·.names)) plugins

/-- The actions that may join. -/
def joining (vs : List Verdict) : List Action := (vs.filter (·.accepted)).map (·.action)

end Registry
end ClipActions
