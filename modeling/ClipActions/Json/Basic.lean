import ClipActions.Double.Shortest

/-!
JSON documents. An object is a list of fields in order; reading and `put` keep one field for each
name. Whole numbers and floating-point numbers are told apart.
-/
namespace ClipActions

inductive Json where
  | null
  | bool (b : Bool)
  | int (n : Int)
  | float (x : Double)
  | str (t : Text)
  | arr (items : List Json)
  | obj (fields : List (Text × Json))
  deriving Inhabited

namespace Json

abbrev Fields := List (Text × Json)

/-- The value of the first field of a name. -/
def Fields.find? (fields : Fields) (name : Text) : Option Json := fields.lookup name

/-- A field gets a new value in its place, or is added at the end. -/
def Fields.put (fields : Fields) (name : Text) (value : Json) : Fields :=
  match fields with
  | [] => [(name, value)]
  | (n, v) :: rest => if n = name then (n, value) :: rest else (n, v) :: Fields.put rest name value

def Fields.update (fields news : Fields) : Fields :=
  news.foldl (fun fs (n, v) => fs.put n v) fields

/-- The fields without those of a name. -/
def Fields.erase (fields : Fields) (name : Text) : Fields := fields.filter fun (n, _) => n ≠ name

/-- Whether a value counts as present: null, false, zero and everything empty do not. -/
def truthy : Json → Bool
  | null => false
  | bool b => b
  | int n => n != 0
  | float x => !x.isZero
  | str t => !t.isEmpty
  | arr items => !items.isEmpty
  | obj fields => !fields.isEmpty

def isNull : Json → Bool
  | null => true
  | _ => false

/-- The number that a boolean or a whole number stands for. -/
def whole? : Json → Option Int
  | bool b => some (if b then 1 else 0)
  | int n => some n
  | _ => none

/-- Whether two values that are no containers are equal; truth values count as 0 and 1. -/
def sameLeaf : Json → Json → Bool
  | null, null => true
  | str s, str t => s == t
  | float x, float y => x.same y
  | float x, j => j.whole?.any x.sameInt
  | j, float y => j.whole?.any y.sameInt
  | i, j => match i.whole?, j.whole? with
    | some m, some n => m == n
    | _, _ => false

mutual

/-- Whether two values are equal; the order of fields does not count. -/
def same : Json → Json → Bool
  | arr xs, arr ys => sameItems xs ys
  | obj fs, obj gs => fs.length == gs.length && sameFields fs gs
  | i, j => sameLeaf i j

def sameItems : List Json → List Json → Bool
  | [], [] => true
  | x :: xs, y :: ys => same x y && sameItems xs ys
  | _, _ => false

def sameFields : List (Text × Json) → List (Text × Json) → Bool
  | [], _ => true
  | (n, v) :: fs, gs => (gs.lookup n).any (same v) && sameFields fs gs

end

mutual

/-- How many containers of a document stand within each other. -/
def nesting : Json → Nat
  | arr items => itemNesting items + 1
  | obj fields => fieldNesting fields + 1
  | _ => 0

def itemNesting : List Json → Nat
  | [] => 0
  | j :: rest => max (nesting j) (itemNesting rest)

def fieldNesting : List (Text × Json) → Nat
  | [] => 0
  | (_, j) :: rest => max (nesting j) (fieldNesting rest)

end

end Json
end ClipActions
