import ClipActions.Text.Basic

/-!
File paths. Repeated and trailing slashes and parts that are a single point do not count; exactly
two leading slashes are kept apart from one.
-/
namespace ClipActions

/-- A path: how many slashes lead it, at most two, and its parts. -/
structure Path where
  lead : Nat
  parts : List Text
  deriving DecidableEq, Repr, Inhabited

namespace Path

def ofText (t : Text) : Path :=
  let slashes := (t.takeWhile (· = .char '/')).length
  { lead := if slashes = 0 then 0 else if slashes = 2 then 2 else 1
    parts := (t.splitOn (.char '/')).filter fun part => part ≠ [] ∧ part ≠ "." }

instance : Coe String Path := ⟨fun s => ofText s⟩

def text (p : Path) : Text :=
  if p.lead = 0 ∧ p.parts = [] then "."
  else List.replicate p.lead (.char '/') ++ Text.joinWith "/" p.parts

def child (p : Path) (name : Text) : Path := { p with parts := p.parts ++ [name] }

/-- The directory that holds a path; a path without parts is its own. -/
def parent (p : Path) : Path := { p with parts := p.parts.dropLast }

/-- Where `..` leads: to the directory that holds a path, above the working directory if need be. The
root holds itself. -/
def up (p : Path) : Path :=
  match p.parts.getLast? with
  | none => if p.lead = 0 then p.child ".." else p
  | some last => if last = ".." then p.child ".." else p.parent

/-- Where one more part leads. -/
def enter (p : Path) (part : Text) : Path := if part = ".." then p.up else p.child part

/-- The path in which each `..` has taken away the part before it. -/
def collapse (p : Path) : Path := p.parts.foldl enter { p with parts := [] }

/-- The last part. -/
def name (p : Path) : Text := p.parts.getLast?.getD []

/-- A name at its last point, if the point neither begins nor ends it. -/
def splitName (name : Text) : Text × Text :=
  let tail := name.afterLast (.char '.')
  let stem := name.take (name.length - tail.length - 1)
  if tail = [] ∨ tail.length = name.length ∨ stem = [] then (name, [])
  else (stem, .char '.' :: tail)

/-- The name without its extension. -/
def stem (p : Path) : Text := (splitName p.name).1

/-- The directory of a user who is called `user`. -/
def usualHome : Path := ofText "/home/user"

/-- A leading `~` stands for the user's directory. Nobody else's directory is known. -/
def expandHome? (p home : Path) : Option Path :=
  match p.parts with
  | first :: rest =>
    if p.lead = 0 ∧ first.head? = some (.char '~') then
      if first = "~" then some { home with parts := home.parts ++ rest } else none
    else some p
  | [] => some p

end Path
end ClipActions
