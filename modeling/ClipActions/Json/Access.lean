import ClipActions.Failure

/-!
Taking apart documents of any shape, as they come from the agent or from a history file. What a
document of the wrong shape does not allow is a misuse.
-/
namespace ClipActions

/-- A computation that may misuse a value. -/
abbrev Checked (α : Type) := Except Misuse α

namespace Json

/-- The value of a field of an object; null if there is none. -/
def get (j : Json) (name : Text) (absent : Json := .null) : Checked Json :=
  match j with
  | obj fields => .ok ((Fields.find? fields name).getD absent)
  | _ => .error (.noMember j.typeName "get")

/-- The value of a field that must be there. -/
def need (j : Json) (name : Text) : Checked Json :=
  match j with
  | obj fields =>
    match Fields.find? fields name with
    | some v => .ok v
    | none => .error (.noEntry name)
  | _ => .error (.notSubscriptable j.typeName)

/-- How many code points, items or fields there are. -/
def size : Json → Checked Nat
  | str t => .ok t.length
  | arr items => .ok items.length
  | obj fields => .ok fields.length
  | j => .error (.noLength j.typeName)

/-- The parts of a document in order: items, names of fields, or code points. -/
def elements : Json → Checked (List Json)
  | arr items => .ok items
  | obj fields => .ok (fields.map fun (name, _) => .str name)
  | str t => .ok (t.map fun s => .str [s])
  | j => .error (.notIterable j.typeName)

def entries : Json → Checked Fields
  | obj fields => .ok fields
  | j => .error (.noMember j.typeName "items")

/-- A document that may stand where a text is put in the place of a placeholder. -/
def replacement : Json → Checked Text
  | str t => .ok t
  | j => .error (.replacement j.typeName)

/-- Texts one after another with a separator between neighbours. -/
def join (separator : Text) (items : List Json) : Checked Text := do
  let texts ← items.zipIdx.mapM fun
    | (str t, _) => .ok t
    | (j, i) => .error (.joined i j.typeName)
  return Text.joinWith separator texts

/-- The first of two documents that counts as present. -/
def orElse (j other : Json) : Json := if j.truthy then j else other

/-- An object as it is, or no fields in the place of one that does not count as present. -/
def orEmpty (j : Json) : Json := j.orElse (.obj [])

end Json

namespace Value

variable {φ : Type}

/-- The value of an entry of a table; null if there is none. -/
def get (v : Value φ) (name : Text) : Checked (Value φ) :=
  match v with
  | table entries => .ok ((atName? entries name).getD null)
  | _ => .error (.noMember v.typeName "get")

/-- The items of a value that has some: items, keys, code points or bytes. -/
def items? : Value φ → Option (List (Value φ))
  | list items | tuple items | set items => some items
  | table entries => some (entries.map (·.1))
  | str t => some (t.map fun s => str [s])
  | bytes b => some (b.map fun n => int n.toNat)
  | _ => none

/-- The type of what keeps a value from naming an entry. -/
def unhashable? : Value φ → Option Text
  | list _ => some "list"
  | table _ => some "dict"
  | set _ => some "set"
  | tuple items => items.attach.findSome? fun ⟨v, _⟩ => v.unhashable?
  | _ => none

/-- Why an item of a value, at an index, makes no entry of a table. -/
def pairFault? (item : Value φ) (index : Nat) : Option Misuse :=
  match item.items? with
  | none => some (.notRow index)
  | some [key, _] => key.unhashable?.map .unhashable
  | some row => some (.notPair index row.length)

/-- The entries of a table. What could be made into one item by item is none for all that. -/
def entries (v : Value φ) : Checked (List (Value φ × Value φ)) :=
  match v with
  | table entries => .ok entries
  | v =>
    match v.items? with
    | none => .error (.notIterable v.typeName)
    | some items =>
      .error ((items.zipIdx.findSome? fun (item, i) => pairFault? item i).getD
        (.noMember v.typeName "get"))

/-- The value itself, or an empty table in the place of one that does not count as present. -/
def orEmpty (v : Value φ) : Value φ := if v.truthy then v else table []

end Value
end ClipActions
