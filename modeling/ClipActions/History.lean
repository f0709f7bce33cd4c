import ClipActions.Context
import ClipActions.Host

/-!
The history: a file with one JSON object on each line, to which records are appended. A line that
holds no object is passed over, so damage to one record does not reach another.
-/
namespace ClipActions.History

/-- A record to be stored, as a table of values. -/
abbrev Entry := List (Data × Data)

/-- What an entry holds under a name, if it counts as present. -/
def given? (e : Entry) (name : Text) : Option Data := (Value.atName? e name).filter (·.truthy)

/-- The entry with an identifier and a time of its own where it has none. -/
def complete (e : Entry) : Job Entry := do
  let id ← match given? e "id" with
    | some v => pure v
    | none => Value.str <$> Job.newRunId
  let time := (given? e "timestamp").getD (.str (← Job.now).record)
  return Value.putEntry (.str "timestamp") time (Value.putEntry (.str "id") id e)

variable [Runtime]

/-- The line of a record, if it can be written as a document that is not nested too deeply. -/
def line (record : Entry) : Except Failure Text :=
  match (Value.table record).toJson with
  | .error u => .error (.unwritable u)
  | .ok j => if Runtime.jsonDepth < j.nesting then .error .tooDeepToWrite else .ok (j.write ++ "\n")

/-- A line at the end of the file; its directory and the file are made if they are not there. -/
def writeLine (file : Path) (text : Text) : Job Unit := do
  Job.makeDirectory file.parent
  match Utf8.encode? text, Utf8.obstacle? text with
  | some bytes, _ => Job.append file bytes
  | none, obstacle =>
    Job.append file []
    if let some o := obstacle then Job.fail (.unencodable o)

def store (file : Path) (record : Entry) : Job Unit :=
  match line record with
  | .ok text => writeLine file text
  | .error f => Job.fail f

/-- How a failure to store a record is reported: as one kind of failure, but for a record that is
nested too deeply. -/
def unstored (file : Path) : Failure → Failure
  | .tooDeepToWrite => .tooDeepToWrite
  | f => .historyWrite file.text f.message

def append (file : Path) (e : Entry) : Job Entry := do
  let record ← complete e
  Job.handle (store file record) fun f => Job.fail (unstored file f)
  return record

abbrev Record := Json.Fields

/-- What a line of the file holds: nothing, a record or something else, or no document at all. -/
def readLine (raw : Text) : Except Json.Fault (Option Record) :=
  let trimmed := raw.trim
  if trimmed.isEmpty then .ok none
  else match Json.read trimmed with
    | .ok (.obj fields) => .ok (some fields)
    | .ok _ => .ok none
    | .error fault => .error fault

/-- The records of a text, the newest first. -/
def records (text : Text) : List Record :=
  (text.lines.filterMap fun raw => (readLine raw).toOption.join).reverse

/-- The lines of a text that hold no document, by number, and what is wrong with them. -/
def faults (text : Text) : List (Nat × Json.Fault) :=
  (text.lines.zipIdx 1).filterMap fun (raw, number) =>
    match readLine raw with
    | .error fault => some (number, fault)
    | .ok _ => none

/-- A line that is passed over is logged; one that is nested too deeply ends the reading. -/
def passOver (file : Path) (found : Nat × Json.Fault) : Job Unit :=
  match found.2.problem.tooDeep? with
  | some c => Job.fail (.tooDeep c)
  | none =>
    Job.log {
      name := "history_line_skipped", level := Log.Level.warning
      fields := [
        ("history_file", .path file), ("line_number", .int found.1),
        ("error", .str found.2.message)] }

/-- All records of the file, the newest first. -/
def readAll (file : Path) : Job (List Record) := do
  let text ← Job.readText file
  (faults text).forM (passOver file)
  return records text

/-- How many records a limit allows; none is no limit, nor is a negative number. -/
def allowed? (limit : Json) : Checked (Option Nat) :=
  match limit with
  | .null => .ok none
  | .bool b => .ok (some (if b then 1 else 0))
  | .int (.ofNat n) => .ok (some n)
  | .int (.negSucc _) => .ok none
  | .float x => if x.atLeastZero then .error .brokenCount else .ok none
  | j => .error (.notComparable j.typeName)

/-- The newest records of the file, as many as a limit allows; none if there is no file. -/
def read (limit : Json) (file : Path) : Job (List Record) := do
  if ← Job.somethingAt file then
    let all ← readAll file
    return match ← Job.check (allowed? limit) with
      | some n => all.take n
      | none => all
  else return []

def hasId (id : Json) (r : Record) : Bool := ((Json.Fields.find? r "id").getD .null).same id

/-- The newest record with an identifier. -/
def find? (id : Json) (file : Path) : Job (Option Record) := do
  return (← read .null file).find? (hasId id)

end ClipActions.History
