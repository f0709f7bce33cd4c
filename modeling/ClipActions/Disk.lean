import ClipActions.Disk.Name

/-!
Files and directories as a run sees them. A path is followed part by part: each part before the next
must be a directory that is there, and `..` leads from such a directory to the one that holds it.
Every operation meets the faults of an ordinary file system, and any further one that the disk is
told to raise.
-/
namespace ClipActions

inductive Node where
  | file (content : Bytes)
  | directory
  deriving DecidableEq, Repr

namespace Disk

/-- What may be asked of a disk and be refused. -/
inductive Use where
  | makeDirectory (p : Path)
  | append (p : Path)
  | list (p : Path)
  deriving DecidableEq, Repr

/-- Why a disk refuses, and how many bytes it has written before it does. -/
structure Refusal where
  fault : OsFault
  written : Nat := 0

end Disk

/-- A disk: what stands at each location, and what it refuses beyond the rules. A location is a path
that has no `..` behind another part. -/
structure Disk where
  nodes : List (Path × Node) := []
  refusal? : Disk.Use → Option Disk.Refusal := fun _ => none

namespace Disk

def node? (d : Disk) (l : Path) : Option Node :=
  if l.parts.all (· = "..") then some .directory else d.nodes.lookup l

/-- The location that a path begins at: the working directory or the root. -/
def start (p : Path) : Path := ⟨min p.lead 1, []⟩

/-- The location to which one more part of the path `p` leads. -/
def step (d : Disk) (p l : Path) (part : Text) : Except Failure Path :=
  match d.node? l with
  | none => .error (.os (.notFound p.text))
  | some (.file _) => .error (.os (.notDirectory p.text))
  | some .directory =>
    if Name.maxPart < Name.size part then .error (.os (.nameTooLong p.text))
    else .ok (l.enter part)

/-- The location of a path; something may stand there or not. -/
def locate (d : Disk) (p : Path) : Except Failure Path :=
  match Name.fault? p.text with
  | some f => .error f
  | none =>
    if Name.maxPath < Name.size p.text then .error (.os (.nameTooLong p.text))
    else p.parts.foldlM (d.step p) (start p)

def find? (d : Disk) (p : Path) : Except Failure (Option Node) :=
  match d.locate p with
  | .ok l => .ok (d.node? l)
  | .error f => if f.meansAbsent then .ok none else .error f

def isDirectory (d : Disk) (p : Path) : Except Failure Bool :=
  (fun n => n = some .directory) <$> d.find? p

def put (d : Disk) (l : Path) (n : Node) : Disk :=
  if d.nodes.any (·.1 = l) then
    { d with nodes := d.nodes.map fun (q, m) => if q = l then (q, n) else (q, m) }
  else { d with nodes := d.nodes ++ [(l, n)] }

def read (d : Disk) (p : Path) : Except Failure Bytes := do
  match d.node? (← d.locate p) with
  | none => .error (.os (.notFound p.text))
  | some .directory => .error (.os (.isDirectory p.text))
  | some (.file content) => .ok content

def makeNew (d : Disk) (p : Path) : Except Failure Disk := do
  let l ← d.locate p
  match d.node? l with
  | none => .ok (d.put l .directory)
  | some _ => .error (.os (.fileExists p.text))

/-- The disk as it is if a directory stands at a path already; else the failure to make it counts. -/
def unlessThere (d : Disk) (p : Path) (f : Failure) : Except Failure Disk := do
  if ← d.isDirectory p then .ok d else .error f

/-- The disk with a directory in a directory that must be there. -/
def makeWithin (d : Disk) (p : Path) : Except Failure Disk :=
  match d.makeNew p with
  | .ok d => .ok d
  | .error (.os fault) =>
    if fault.code = 2 then .error (.os fault) else d.unlessThere p (.os fault)
  | .error f => .error f

/-- The disk after a change that may fail as a whole. -/
def orSame (d : Disk) : Except Failure Disk → Disk × Option Failure
  | .ok d => (d, none)
  | .error f => (d, some f)

/-- The disk with a directory and those on the way to it; a failure leaves those made before it. -/
def makeAll (d : Disk) (p : Path) : Disk × Option Failure :=
  match d.makeWithin p with
  | .error (.os fault) =>
    if fault.code = 2 ∧ p.parts ≠ [] then
      match d.makeAll p.parent with
      | (d, none) => d.orSame (d.makeWithin p)
      | failed => failed
    else (d, some (.os fault))
  | made => d.orSame made

termination_by p.parts.length

decreasing_by
  have := List.length_pos_iff.2 ‹_ ∧ p.parts ≠ []›.2
  simp only [Path.parent, List.length_dropLast]
  omega

def makeDirectory (d : Disk) (p : Path) : Disk × Option Failure :=
  match d.refusal? (.makeDirectory p) with
  | some refusal => (d, some (.os refusal.fault))
  | none => d.makeAll p

/-- The disk with something at a path; the directories on the way to it are made. -/
def plant (d : Disk) (p : Path) (n : Node) : Except Failure Disk := do
  let (d, failure) := d.makeAll p.parent
  if let some f := failure then throw f
  return d.put (← d.locate p) n

def entries (d : Disk) (l : Path) : List (Text × Node) :=
  d.nodes.filterMap fun (q, n) =>
    if q.parts ≠ [] ∧ q.parent = l then some (q.name, n) else none

def list (d : Disk) (p : Path) : Except Failure (List (Text × Node)) :=
  match d.refusal? (.list p) with
  | some refusal => .error (.os refusal.fault)
  | none => d.entries <$> d.locate p

/-- Where a file lies that is opened for appending; it may be yet to make. -/
def appendable (d : Disk) (p : Path) : Except Failure Path := do
  let l ← d.locate p
  if d.node? l = some .directory then .error (.os (.isDirectory p.text)) else .ok l

/-- The content of the file at a location, which is empty if it is not there. -/
def contentOrEmpty (d : Disk) (l : Path) : Bytes :=
  match d.node? l with
  | some (.file content) => content
  | _ => []

/-- Bytes at the end of a file, which is made if it is not there; the failure is met on the way. -/
def append (d : Disk) (p : Path) (bytes : Bytes) : Disk × Option Failure :=
  match d.appendable p with
  | .error f => (d, some f)
  | .ok l =>
    match d.refusal? (.append p) with
    | some refusal =>
      let torn := d.contentOrEmpty l ++ bytes.take refusal.written
      (if refusal.written = 0 then d else d.put l (.file torn), some (.os refusal.fault))
    | none => (d.put l (.file (d.contentOrEmpty l ++ bytes)), none)

end Disk
end ClipActions
