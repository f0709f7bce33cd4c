import ClipActions.Failure
import ClipActions.Json.Reader
import ClipActions.Log.Event
import ClipActions.Log.Schema

/-!
The readable log file: each record is a block of lines, a header with the name of the event and one
line for each field. A blank line stands between two blocks.
-/
namespace ClipActions.Log

/-- A record handed to the log. -/
structure Record where
  logger : Text := "root"
  level : Level := Level.info
  message : Text
  /-- The error that the record reports. -/
  error : Option Halt := none

namespace Block

/-- The fields that every record has. -/
def common (now : Instant) (r : Record) : Json.Fields := [
  ("ts_utc", .str now.record), ("level", .str r.level.name), ("logger", .str r.logger)]

variable [Runtime]

/-- The object that a message holds, if it is one in braces. -/
def parsed (message : Text) : Except Failure (Option Json.Fields) :=
  if Text.startsWith "\x7b" message && Text.endsWith "\x7d" message then
    match Json.read message with
    | .ok (.obj fields) => .ok (some fields)
    | .ok _ => .ok none
    | .error fault =>
      match fault.problem.tooDeep? with
      | some c => .error (.tooDeep c)
      | none => .ok none
  else .ok none

/-- The fields of a record: those of its message win over the common ones. -/
def fields (now : Instant) (r : Record) : Except Failure Json.Fields := do
  let news := (← parsed r.message).getD [("event", .str r.logger), ("message", .str r.message)]
  return Json.Fields.update (common now r) news

def line (v : Json) : Text :=
  v.display.flatMap fun s => if s = .char '\n' then "\\n" else [s]

/-- The names of the fields that are not null: those of the schema in its order, then the others. -/
def orderedNames (event : Text) (fields : Json.Fields) : List Text :=
  let preferred := Schema.order event
  let present (name : Text) : Bool := (fields.find? name).any (!·.isNull)
  preferred.filter present ++
    Text.sort ((fields.map (·.1)).filter fun name => present name && !preferred.contains name)

/-- What the record reports of an error, in one or more lines. -/
def errorText (h : Halt) : Text :=
  if h.message = [] then h.reportedKind else h.reportedKind ++ ": " ++ h.message

/-- The lines of the block of a record that has fields. -/
def lines (r : Record) (all : Json.Fields) : List Text :=
  let event := ((all.find? "event").map (·.display)).getD r.logger
  let rest := all.erase "event"
  let shown := (orderedNames event rest).map fun name =>
    name ++ ": " ++ line ((rest.find? name).getD .null)
  let error := match r.error with
    | none => []
    | some h => ["traceback:", errorText h]
  ["=== " ++ event ++ " ==="] ++ shown ++ error

/-- The block of a record; every block but the first of a log begins with a blank line. -/
def format (first : Bool) (now : Instant) (r : Record) : Except Failure Text := do
  let body := Text.joinWith "\n" (lines r (← fields now r))
  return if first then body else "\n" ++ body

end Block
end ClipActions.Log
