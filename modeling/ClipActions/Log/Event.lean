import ClipActions.Failure
import ClipActions.Instant

/-! Log events: a name, a level and fields, written as one JSON object. -/
namespace ClipActions.Log

/-- How grave an event is; graver events have greater numbers. -/
abbrev Level := Int

namespace Level

def info : Level := 20

def warning : Level := 30

def error : Level := 40

def critical : Level := 50

def names : List (Int × Text) := [
  (0, "NOTSET"), (10, "DEBUG"), (20, "INFO"), (30, "WARNING"), (40, "ERROR"), (50, "CRITICAL")]

def name (level : Level) : Text := (names.lookup level).getD ("Level " ++ Text.ofInt level)

end Level

structure Event where
  name : Text
  level : Level := Level.info
  fields : List (Text × Data)

namespace Event

/-- The object of an event: the time, the name and the fields. -/
def payload (e : Event) (now : Instant) : Json :=
  .obj (Json.Fields.update [("ts", .str now.event), ("event", .str e.name)]
    (e.fields.map fun (name, v) => (name, v.logSafe)))

def record (e : Event) (now : Instant) : Text := (e.payload now).write

variable [Runtime]

/-- The values of the fields are not nested deeper than the stack bears when they are reduced. -/
def Shallow (e : Event) : Prop := ∀ f ∈ e.fields, f.2.nesting ≤ Runtime.logDepth

instance (e : Event) : Decidable e.Shallow := inferInstanceAs (Decidable (∀ f ∈ e.fields, _))

/-- The record of an event, if its fields can be reduced. -/
def record? (e : Event) (now : Instant) : Except Failure Text :=
  if e.Shallow then .ok (e.record now) else .error (.tooDeepToLog Runtime.overflow)

end Event
end ClipActions.Log
