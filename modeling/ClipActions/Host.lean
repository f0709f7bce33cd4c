import ClipActions.Agent.Exchange
import ClipActions.Disk
import ClipActions.Log.Block
import ClipActions.Registry
import ClipActions.RunId
import ClipActions.Secret
import ClipActions.Service
import ClipActions.Text.Newline

/-!
The host of a run: the machine as the run sees it, and the trace of what the run does to it. A job
is a computation that acts on a host and ends with a result or a halt; what it did before a halt
stays done.
-/
namespace ClipActions

/-- Where log records go: to an observer, nowhere, or to a file, which may be yet to begin. -/
inductive Log.Target where
  | observer
  | nowhere
  | file (p : Path) (first : Bool)

/-- Whether an observer sees the records of a level. With no target, none up to the gravest do. -/
def Log.Target.observes (target : Log.Target) (level : Log.Level) : Bool :=
  match target with
  | .observer => Log.Level.info ≤ level
  | .nowhere => Log.Level.critical < level
  | .file .. => false

/-- Something that a job did to its surroundings. -/
inductive Effect where
  | printed (t : Text)
  | complained (t : Text)
  /-- A log event was given to a target. -/
  | logged (target : Log.Target) (level : Log.Level) (record : Text)
  /-- A request reached the agent. -/
  | requested (method path : Text) (body : Option Json)
  /-- A model service was called. -/
  | called (operation : Text) (arguments : Json.Fields)
  | copied (content : Json)
  /-- A question was put to somebody other than the terminal. -/
  | asked (message : Text)

structure Host where
  now : Instant
  /-- The directory of the user. -/
  home : Path := Path.usualHome
  /-- The numbers that draws give, over and over. -/
  draws : List Nat := [0]
  /-- How many numbers have been drawn. -/
  drawn : Nat := 0
  /-- The readings of the timer to come, in seconds; the last one is repeated. -/
  timer : List Double := []
  agent : Agent.Peer := .absent
  /-- What a request meets at a socket where nobody serves. -/
  refusal : Path → Agent.TransportError := Agent.Peer.refused
  /-- The answers of the model service to come. -/
  service : List Service.Answer := []
  /-- What the model service gives when no answer is left. -/
  silence : Service.Answer := Service.silence
  /-- What stops the opening of a model service with some arguments. -/
  openHalt? : Text → Json.Fields → Option Halt := fun _ _ => none
  /-- Why nothing can be copied to the clipboard. -/
  clipboardFault : Option Text := none
  /-- What else stops the copying of a content. -/
  copyHalt? : Json → Option Halt := fun _ => none
  /-- What the terminal has to read. -/
  terminal : Text := []
  disk : Disk := {}
  /-- What loading the plugin file at a path, under a private name, yields. -/
  load : Text → Path → Export := fun _ _ => { attributes := [] }
  target : Log.Target := .observer
  /-- The registry of this process, once it is built. -/
  registry : Option Registry := none
  trace : List Effect := []

abbrev Job (α : Type) := ExceptT Halt (StateM Host) α

namespace Job

variable {α : Type}

def result (job : Job α) (host : Host) : Except Halt α × Host := job.run host

def fail (f : Failure) : Job α := throw (.failed f)

/-- The result of a computation that may misuse a value. -/
def check : Checked α → Job α
  | .ok a => pure a
  | .error m => fail (.misuse m)

/-- A result or the handling of a failure; an interruption passes. -/
def handle (job : Job α) (handler : Failure → Job α) : Job α :=
  tryCatch job fun
    | .failed f => handler f
    | .interrupted i => throw (.interrupted i)

/-- The end of a job as a value; nothing passes. -/
def settle (job : Job α) : Job (Except Halt α) :=
  tryCatch (Except.ok <$> job) fun h => pure (.error h)

/-- The end of a job as a value unless it is an interruption, which passes. -/
def attempt (job : Job α) : Job (Except Failure α) :=
  handle (Except.ok <$> job) fun f => pure (.error f)

def emit (e : Effect) : Job Unit := modify fun host => { host with trace := host.trace ++ [e] }

variable [Runtime]

/-- A line on the standard output, if that takes it. -/
def say (line : Text) : Job Unit :=
  match Runtime.outputFault? (line ++ "\n") with
  | some e => fail (.thrown e)
  | none => emit (.printed (line ++ "\n"))

/-- A line on the standard error, which takes every text. -/
def complain (line : Text) : Job Unit := emit (.complained (line ++ "\n"))

def now : Job Instant := return (← get).now

def readTimer : Job Double := do
  let host ← get
  match host.timer with
  | [] => return .zero false
  | [last] => return last
  | next :: rest =>
    set { host with timer := rest }
    return next

/-- The milliseconds between two readings, by floating-point arithmetic. -/
def elapsed (start stop : Double) : Double := (stop.sub start).mul (.ofNat 1000)

/-- The milliseconds since a reading, to one decimal. -/
def sinceTenth (start : Double) : Job Double :=
  return (elapsed start (← readTimer)).roundTenth

/-- The whole milliseconds since a reading. -/
def since (start : Double) : Job Int := do
  match (elapsed start (← readTimer)).round with
  | .ok ms => return ms
  | .error u => fail (.unroundable u)

def newRunId : Job Text := do
  let host ← get
  let numbers := (List.range RunId.suffixLength).map fun i =>
    match host.draws with
    | [] => 0
    | draws => draws.getD ((host.drawn + i) % draws.length) 0
  set { host with drawn := host.drawn + RunId.suffixLength }
  return RunId.make host.now numbers

def readLine : Job Text := do
  let host ← get
  let line := host.terminal.takeWhile (· ≠ .char '\n')
  let rest := host.terminal.drop line.length
  set { host with terminal := rest.drop 1 }
  return line ++ rest.take 1

/-- The result of a computation that may fail. -/
def take : Except Failure α → Job α
  | .ok a => pure a
  | .error f => fail f

/-- A change of the disk; what it did before a failure stays done. -/
def change (f : Disk → Disk × Option Failure) : Job Unit := do
  let host ← get
  let (disk, failure) := f host.disk
  set { host with disk }
  match failure with
  | none => return ()
  | some f => fail f

/-- Bytes at the end of a file. -/
def append (p : Path) (bytes : Bytes) : Job Unit := change (·.append p bytes)

def makeDirectory (p : Path) : Job Unit := change (·.makeDirectory p)

def somethingAt (p : Path) : Job Bool := do return (← take ((← get).disk.find? p)).isSome

/-- The text of a file: faulty bytes become U+FFFD and line ends become line feeds. -/
def readText (p : Path) : Job Text := do
  return (Utf8.decode (← take ((← get).disk.read p))).unifyNewlines

/-- A record for the log. Records below the level of information are dropped, and so is a block that the
encoding of the log file refuses; what is then said of the log on the standard error is no part of the
trace. -/
def logRecord (r : Log.Record) : Job Unit := do
  if Log.Level.info ≤ r.level then
    let host ← get
    match host.target with
    | .observer | .nowhere => return ()
    | .file p first =>
      let block := (← take (Log.Block.format first host.now r)) ++ "\n"
      let disk := match Utf8.encode? block with
        | some bytes => (host.disk.append p bytes).1
        | none => host.disk
      set { host with disk, target := .file p false }

def log (e : Log.Event) : Job Unit := do
  let host ← get
  let record ← take (e.record? host.now)
  emit (.logged host.target e.level record)
  logRecord { level := e.level, message := record }

def logWarning (message event : Text) (fields : List (Text × Data)) : Job Unit :=
  log { name := event, level := Log.Level.warning, fields := ("message", .str message) :: fields }

/-- A warning to the user, without its secrets, which is logged too. -/
def warn (message event : Text) (fields : List (Text × Data)) : Job Unit := do
  let message := Secret.redact message
  complain ("Warning: " ++ message)
  logWarning message event fields

/-- Fields may not have the name of a part that an event has anyway. -/
def refuse (called : Text) (parts : List Text) (fields : List (Text × Data)) : Job Unit :=
  match fields.find? fun (name, _) => parts.contains name with
  | some (name, _) => fail (.misuse (.twice called name))
  | none => return ()

/-- Fields may not set the level of their event. -/
def refuseLevel (fields : List (Text × Data)) : Job Unit :=
  if fields.any (·.1 = "level") then
    fail (.misuse (.named "cbai.logging.events.log_event" "level"))
  else return ()

/-- An event whose fields somebody else has named. -/
def logForeign (e : Log.Event) : Job Unit := do
  refuseLevel e.fields
  refuse "log_event" ["event"] e.fields
  log e

/-- A warning whose fields somebody else has named. The user has it before it is logged. -/
def warnForeign (message event : Text) (fields : List (Text × Data)) : Job Unit := do
  refuse "warn" ["message", "event"] fields
  let message := Secret.redact message
  complain ("Warning: " ++ message)
  refuseLevel fields
  logWarning message event fields

/-- Log records go to a file, which is made at once, or nowhere if no file is named. -/
def setTarget (file : Option Text) : Job Unit := do
  match file.filter (!·.isEmpty) with
  | none => modify fun host => { host with target := .nowhere }
  | some name =>
    let p := Path.ofText name
    makeDirectory p.parent
    append p.collapse []
    modify fun host => { host with target := .file p.collapse true }

end Job
end ClipActions
