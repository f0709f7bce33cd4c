import ClipActions.Json.Writer
import ClipActions.Path
import ClipActions.Text.Quoted
import ClipActions.Text.Utf8

/-!
Values of any shape: what a plugin exports, what a caller hands to the log, what an error carries.
They are shown, reduced to JSON for the log without ever failing, or written as JSON if they can be.
-/
namespace ClipActions

/-- A value of any shape; `φ` is the type of the functions that may occur in it. -/
inductive Value (φ : Type) where
  | null
  | bool (b : Bool)
  | int (n : Int)
  | float (x : Double)
  | str (t : Text)
  | bytes (b : Bytes)
  | path (p : Path)
  | list (items : List (Value φ))
  | tuple (items : List (Value φ))
  | set (items : List (Value φ))
  | table (entries : List (Value φ × Value φ))
  /-- Anything else, known only by the text it shows. -/
  | shown (t : Text)
  /-- Anything else, known only by its attributes. -/
  | object (attributes : List (Text × Value φ))
  | function (f : φ)
  deriving Inhabited

abbrev Data := Value Empty

namespace Value

variable {φ : Type}

def typeName : Value φ → Text
  | null => "NoneType"
  | bool _ => "bool"
  | int _ => "int"
  | float _ => "float"
  | str _ => "str"
  | bytes _ => "bytes"
  | path _ => "PosixPath"
  | list _ => "list"
  | tuple _ => "tuple"
  | set _ => "set"
  | table _ => "dict"
  | shown _ | object _ => "object"
  | function _ => "function"

def truthy : Value φ → Bool
  | null => false
  | bool b => b
  | int n => n != 0
  | float x => !x.isZero
  | str t => !t.isEmpty
  | bytes b => !b.isEmpty
  | list items | tuple items | set items => !items.isEmpty
  | table entries => !entries.isEmpty
  | path _ | shown _ | object _ | function _ => true

def isNull : Value φ → Bool
  | null => true
  | _ => false

/-- One byte inside quotes. -/
def quoteByte (quote : Symbol) (b : UInt8) : Text :=
  let s := Symbol.ofCode b.toNat
  if b.toNat < 0x7F then Text.quoteSymbol quote s else "\\x" ++ Text.hex 2 b.toNat

def quotedBytes (b : Bytes) : Text :=
  let quote := Text.quoteFor (b.map fun x => Symbol.ofCode x.toNat)
  .char 'b' :: quote :: b.flatMap (quoteByte quote) ++ [quote]

/-- What encloses the shown items of a tuple; a single one keeps its comma. -/
def tupleText : List Text → Text
  | [] => "()"
  | [t] => "(" ++ t ++ ",)"
  | ts => "(" ++ Text.joinWith ", " ts ++ ")"

def setText : List Text → Text
  | [] => "set()"
  | ts => "\x7b" ++ Text.joinWith ", " ts ++ "\x7d"

mutual

/-- How a value looks inside another one: texts are quoted. -/
def quotedForm : Value φ → Text
  | null => "None"
  | bool b => if b then "True" else "False"
  | int n => Text.ofInt n
  | float x => x.text
  | str t => t.quoted
  | bytes b => quotedBytes b
  | path p => "PosixPath(" ++ p.text.quoted ++ ")"
  | list items => "[" ++ Text.joinWith ", " (quotedItems items) ++ "]"
  | tuple items => tupleText (quotedItems items)
  | set items => setText (quotedItems items)
  | table entries => "\x7b" ++ Text.joinWith ", " (quotedEntries entries) ++ "\x7d"
  | shown t => t
  | object _ => "<object>"
  | function _ => "<function>"

def quotedItems : List (Value φ) → List Text
  | [] => []
  | v :: rest => quotedForm v :: quotedItems rest

def quotedEntries : List (Value φ × Value φ) → List Text
  | [] => []
  | (k, v) :: rest => (quotedForm k ++ ": " ++ quotedForm v) :: quotedEntries rest

end

/-- How a value looks by itself. -/
def display : Value φ → Text
  | str t => t
  | path p => p.text
  | v => v.quotedForm

def whole? : Value φ → Option Int
  | bool b => some (if b then 1 else 0)
  | int n => some n
  | _ => none

mutual

/-- Whether two values that may name an entry of a table name the same one. -/
def sameKey : Value φ → Value φ → Bool
  | null, null => true
  | tuple xs, tuple ys => sameKeys xs ys
  | str s, str t => s == t
  | bytes b, bytes c => b == c
  | path p, path q => p == q
  | float x, float y => x.same y
  | float x, v => v.whole?.any x.sameInt
  | v, float y => v.whole?.any y.sameInt
  | v, w => match v.whole?, w.whole? with
    | some m, some n => m == n
    | _, _ => false

def sameKeys : List (Value φ) → List (Value φ) → Bool
  | [], [] => true
  | x :: xs, y :: ys => sameKey x y && sameKeys xs ys
  | _, _ => false

end

/-- An entry gets a new value under its old key, or is added at the end. -/
def putEntry (k v : Value φ) : List (Value φ × Value φ) → List (Value φ × Value φ)
  | [] => [(k, v)]
  | (k', v') :: rest => if sameKey k' k then (k', v) :: rest else (k', v') :: putEntry k v rest

/-- The table of a list of entries: each key stands once, with its last value. -/
def ofEntries (entries : List (Value φ × Value φ)) : Value φ :=
  table (entries.foldl (fun es (k, v) => putEntry k v es) [])

def atName? (entries : List (Value φ × Value φ)) (name : Text) : Option (Value φ) :=
  match entries with
  | [] => none
  | (str t, v) :: rest => if t = name then some v else atName? rest name
  | _ :: rest => atName? rest name

/-- The attribute of a value; null if it has none of that name. -/
def member (v : Value φ) (name : Text) : Value φ :=
  match v with
  | object attributes => (attributes.lookup name).getD null
  | _ => null

mutual

def ofJson : Json → Value φ
  | .null => null
  | .bool b => bool b
  | .int n => int n
  | .float x => float x
  | .str t => str t
  | .arr items => list (ofJsonItems items)
  | .obj fields => table (ofJsonFields fields)

def ofJsonItems : List Json → List (Value φ)
  | [] => []
  | j :: rest => ofJson j :: ofJsonItems rest

def ofJsonFields : List (Text × Json) → List (Value φ × Value φ)
  | [] => []
  | (n, j) :: rest => (str n, ofJson j) :: ofJsonFields rest

end

mutual

/-- A value as a document for the log. What JSON does not know is shown as text. -/
def logSafe : Value φ → Json
  | null => .null
  | bool b => .bool b
  | int n => .int n
  | float x => .float x
  | str t => .str t
  | path p => .str p.text
  | list items | tuple items | set items => .arr (logSafeItems items)
  | table entries => .obj (Json.Fields.update [] (logSafeEntries entries))
  | v => .str v.display

def logSafeItems : List (Value φ) → List Json
  | [] => []
  | v :: rest => logSafe v :: logSafeItems rest

def logSafeEntries : List (Value φ × Value φ) → List (Text × Json)
  | [] => []
  | (k, v) :: rest => (k.display, logSafe v) :: logSafeEntries rest

end

mutual

/-- How many containers of a value stand within each other, those of its keys among them. -/
def nesting : Value φ → Nat
  | list items | tuple items | set items => itemNesting items + 1
  | table entries => entryNesting entries + 1
  | _ => 0

def itemNesting : List (Value φ) → Nat
  | [] => 0
  | v :: rest => max (nesting v) (itemNesting rest)

def entryNesting : List (Value φ × Value φ) → Nat
  | [] => 0
  | (k, v) :: rest => max (max (nesting k) (nesting v)) (entryNesting rest)

end

/-- Why a value has no JSON form: a value of a type that JSON lacks, or such a name of a field. -/
inductive Unwritable where
  | value (type : Text)
  | name (type : Text)
  deriving DecidableEq, Repr

def Unwritable.message : Unwritable → Text
  | .value type => "Object of type " ++ type ++ " is not JSON serializable"
  | .name type => "keys must be str, int, float, bool or None, not " ++ type

/-- The name of the field that a key becomes. -/
def fieldName : Value φ → Except Unwritable Text
  | str t => .ok t
  | null => .ok "null"
  | bool b => .ok (if b then "true" else "false")
  | int n => .ok (Text.ofInt n)
  | float x => .ok (Json.writeFloat x)
  | v => .error (.name v.typeName)

mutual

/-- The document that a value is, if JSON knows all its parts. -/
def toJson : Value φ → Except Unwritable Json
  | null => .ok .null
  | bool b => .ok (.bool b)
  | int n => .ok (.int n)
  | float x => .ok (.float x)
  | str t => .ok (.str t)
  | list items | tuple items => .arr <$> toJsonItems items
  | table entries => .obj <$> toJsonEntries entries
  | v => .error (.value v.typeName)

def toJsonItems : List (Value φ) → Except Unwritable (List Json)
  | [] => .ok []
  | v :: rest => do return (← toJson v) :: (← toJsonItems rest)

def toJsonEntries : List (Value φ × Value φ) → Except Unwritable (List (Text × Json))
  | [] => .ok []
  | (k, v) :: rest => do return (← fieldName k, ← toJson v) :: (← toJsonEntries rest)

end

end Value

namespace Json

/-- How a document looks by itself: a text as it is, anything else in its shown form. -/
def display (j : Json) : Text := (Value.ofJson j : Data).display

def typeName (j : Json) : Text := (Value.ofJson j : Data).typeName

end Json
end ClipActions
