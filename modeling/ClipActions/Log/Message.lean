import ClipActions.Double.Fixed
import ClipActions.Failure
import ClipActions.Log.Place

/-!
Filling the places of a message, for log records that come with arguments. The library itself makes
none, but what else runs in its process may: its log file shows them filled in. Texts are cut to a
precision and brought to a width; of numbers a precision is the count of digits, and their sign and
the mark of their base stand before zeros that fill the width and behind blanks.
-/
namespace ClipActions.Log.Message

/-- Why the places of a message cannot be filled. -/
inductive Fault where
  | fewArguments
  | manyArguments
  | noTable
  | noEntry (name : Text)
  | openName
  | noWidth
  | wide
  | precise
  /-- An argument gives a width beyond the numbers that a width may be. -/
  | farWide
  /-- An argument gives a precision beyond the numbers that a precision may be. -/
  | farPrecise
  /-- A whole number cannot have so many digits. -/
  | manyDigits
  /-- The text of a place is too long to be held. -/
  | noMemory
  | noNumber (place : Symbol) (type : Text)
  | noWhole (place : Symbol) (type : Text)
  | noReal (type : Text)
  | largeReal
  | noSymbol
  | largeSymbol
  | unroundable (u : Double.Unroundable)
  | unknownPlace (symbol : Symbol) (index : Nat)
  | incomplete
  deriving DecidableEq, Repr

namespace Fault

def kind : Fault → Text
  | noEntry _ => "KeyError"
  | openName | wide | precise | unknownPlace .. | incomplete => "ValueError"
  | largeReal | largeSymbol | farWide | farPrecise | manyDigits => "OverflowError"
  | noMemory => "MemoryError"
  | unroundable u => (Failure.unroundable u).kind
  | _ => "TypeError"

def message : Fault → Text
  | fewArguments => "not enough arguments for format string"
  | manyArguments => "not all arguments converted during string formatting"
  | noTable => "format requires a mapping"
  | noEntry name => name.quoted
  | openName => "incomplete format key"
  | noWidth => "* wants int"
  | wide => "width too big"
  | precise => "precision too big"
  | farWide => "Python int too large to convert to C ssize_t"
  | farPrecise => "Python int too large to convert to C int"
  | manyDigits => "precision too large"
  | noMemory => []
  | noNumber place type =>
    .char '%' :: place :: " format: a real number is required, not " ++ type
  | noWhole place type => .char '%' :: place :: " format: an integer is required, not " ++ type
  | noReal type => "must be real number, not " ++ type
  | largeReal => "int too large to convert to float"
  | noSymbol => "%c requires int or char"
  | largeSymbol => "%c arg not in range(0x110000)"
  | unroundable u => (Failure.unroundable u).message
  | unknownPlace symbol index =>
    let shown := if 0x1F ≤ symbol.code ∧ symbol.code < 0x7F then symbol else .char '?'
    "unsupported format character '" ++ shown :: "' (0x" ++ Radix.write 16 symbol.code ++
      ") at index " ++ Text.ofNat index
  | incomplete => "incomplete format"

end Fault

/-- What is left of the arguments of a message. -/
inductive Supply where
  /-- Arguments that are taken in order, each once. -/
  | row (rest : List Data)
  /-- A table that is asked by name, and what is to be taken next. -/
  | table (entries : List (Data × Data)) (next : Option Data)

namespace Supply

/-- A single table that is not empty can be asked by name. -/
def ofArguments : List Data → Supply
  | [.table (e :: rest)] => .table (e :: rest) (some (.table (e :: rest)))
  | arguments => .row arguments

def take : Supply → Except Fault (Data × Supply)
  | .row (v :: rest) => .ok (v, .row rest)
  | .table entries (some v) => .ok (v, .table entries none)
  | _ => .error .fewArguments

def select (s : Supply) (selector : Selector) : Except Fault Supply :=
  match s, selector with
  | .row _, _ => .error .noTable
  | .table .., .unclosed => .error .openName
  | .table entries _, .name n =>
    match Value.atName? entries n with
    | some v => .ok (.table entries (some v))
    | none => .error (.noEntry n)

/-- Arguments in a row have all to be taken. -/
def used : Supply → Bool
  | .row (_ :: _) => false
  | _ => true

end Supply

/-- How a place is set: its marks and extents, those that are arguments known. -/
structure Setting where
  left : Bool
  plus : Bool
  blank : Bool
  alternate : Bool
  zero : Bool
  width : Nat := 0
  precision : Option Nat := none
  deriving DecidableEq, Repr

def Setting.ofMarks (marks : List Symbol) : Setting where
  left := marks.contains (.char '-')
  plus := marks.contains (.char '+')
  blank := marks.contains (.char ' ')
  alternate := marks.contains (.char '#')
  zero := marks.contains (.char '0')

/-- The whole number that an argument gives for an extent. -/
def takeExtent (s : Supply) : Except Fault (Int × Supply) := do
  let (v, s) ← s.take
  match v.whole? with
  | some n => return (n, s)
  | none => .error .noWidth

/-- The widest place that can be asked for. -/
def maxWidth : Nat := 0x7FFFFFFFFFFFFFFF

/-- The highest precision that can be asked for. -/
def maxPrecision : Nat := 0x7FFFFFFF

/-- The most digits that a whole number can be asked for. -/
def maxDigits : Nat := maxPrecision - 3

/-- The longest text that can be held. -/
def maxSize : Nat := 0x1000000000

/-- Whether a number lies between the bounds of the numbers whose highest one is `top`. -/
def isNear (top : Nat) (n : Int) : Bool := -(top : Int) - 1 ≤ n && n ≤ top

/-- The setting with its width; a negative one sets the text to the left. The lowest number of all has
no opposite and stays below every width. -/
def Setting.widen (x : Setting) (width : Option Extent) (s : Supply) :
    Except Fault (Setting × Supply) :=
  match width with
  | none => .ok (x, s)
  | some (.fixed n) => if n ≤ maxWidth then .ok ({ x with width := n }, s) else .error .wide
  | some .given => do
    let (n, s) ← takeExtent s
    if isNear maxWidth n then
      let width := if n.natAbs ≤ maxWidth then n.natAbs else 0
      return ({ x with width, left := x.left || n < 0 }, s)
    else .error .farWide

/-- The setting with its precision; a negative one counts as zero. -/
def Setting.limit (x : Setting) (precision : Option Extent) (s : Supply) :
    Except Fault (Setting × Supply) :=
  match precision with
  | none => .ok (x, s)
  | some (.fixed n) =>
    if n ≤ maxPrecision then .ok ({ x with precision := some n }, s) else .error .precise
  | some .given => do
    let (n, s) ← takeExtent s
    if isNear maxPrecision n then return ({ x with precision := some n.toNat }, s)
    else .error .farPrecise

/-- A text brought to a width by blanks. -/
def Setting.fit (x : Setting) (t : Text) : Text :=
  let padding : Text := List.replicate (x.width - t.length) (.char ' ')
  if x.left then t ++ padding else padding ++ t

/-- A number brought to a width: its sign, the mark of its base and its digits. -/
def Setting.fitNumber (x : Setting) (negative : Bool) (mark digits : Text) : Text :=
  let sign : Text := if negative then "-" else if x.plus then "+" else if x.blank then " " else []
  let head := sign ++ mark
  if x.zero && !x.left then head ++ digits.padZeros (x.width - head.length)
  else x.fit (head ++ digits)

def decimalOf (place : Symbol) (v : Data) : Except Fault Int :=
  match v with
  | .float x => x.truncate.mapError .unroundable
  | v => match v.whole? with
    | some n => .ok n
    | none => .error (.noNumber place v.typeName)

def realOf (v : Data) : Except Fault Double :=
  match v with
  | .float x => .ok x
  | v => match v.whole? with
    | some n =>
      let x := Double.ofInt n
      match x.parts with
      | .infinite _ => .error .largeReal
      | _ => .ok x
    | none => .error (.noReal v.typeName)

def symbolOf (v : Data) : Except Fault Symbol :=
  match v with
  | .str [s] => .ok s
  | v => match v.whole? with
    | some n => if 0 ≤ n ∧ n < 0x110000 then .ok (.ofCode n.toNat) else .error .largeSymbol
    | none => .error .noSymbol

/-- What a place of a kind shows. -/
inductive Kind where
  | shown
  | quoted
  | ascii
  | symbol
  | decimal
  | whole (base : Nat) (mark : Text) (upper : Bool)
  | real (layout : Double.Layout) (upper : Bool)
  deriving DecidableEq, Repr

def Kind.letters : List (Char × Kind) := [
  ('s', .shown), ('r', .quoted), ('a', .ascii), ('c', .symbol),
  ('d', .decimal), ('i', .decimal), ('u', .decimal),
  ('o', .whole 8 "0o" false), ('x', .whole 16 "0x" false), ('X', .whole 16 "0X" true),
  ('e', .real .scientific false), ('E', .real .scientific true),
  ('f', .real .positional false), ('F', .real .positional true),
  ('g', .real .general false), ('G', .real .general true)]

def Kind.ofLetter? : Symbol → Option Kind
  | .char c => letters.lookup c
  | .lone _ => none

/-- How many digits a floating-point number has if nothing is said. -/
def usualPrecision : Nat := 6

def inCase (upper : Bool) (t : Text) : Text := if upper then t.asciiUpper else t

/-- The text of an argument in a place with a letter. -/
def Kind.written (k : Kind) (letter : Symbol) (x : Setting) (v : Data) : Except Fault Text :=
  let cut (t : Text) : Text := t.take (x.precision.getD t.length)
  let digits (base : Nat) (n : Int) : Except Fault Text :=
    let count := x.precision.getD 0
    if count ≤ maxDigits then .ok ((Radix.write base n.natAbs).padZeros count) else .error .manyDigits
  match k with
  | .shown => .ok (x.fit (cut v.display))
  | .quoted => .ok (x.fit (cut v.quotedForm))
  | .ascii => .ok (x.fit (cut v.quotedForm.inAscii))
  | .symbol => (fun s => x.fit [s]) <$> symbolOf v
  | .decimal => do
    let n ← decimalOf letter v
    return x.fitNumber (n < 0) [] (← digits 10 n)
  | .whole base mark upper =>
    match v.whole? with
    | some n =>
      (fun ds => x.fitNumber (n < 0) (if x.alternate then mark else []) (inCase upper ds)) <$>
        digits base n
    | none => .error (.noWhole letter v.typeName)
  | .real layout upper => do
    let r ← realOf v
    let t := inCase upper (r.written layout x.alternate (x.precision.getD usualPrecision))
    match t with
    | .char '-' :: rest => return x.fitNumber true [] rest
    | t => return x.fitNumber false [] t

/-- The text of an argument in a place with a letter, unless the place is too wide for any text. -/
def Kind.fitted (k : Kind) (letter : Symbol) (x : Setting) (v : Data) : Except Fault Text :=
  if x.width ≤ maxSize then k.written letter x v
  else do
    let _ ← k.written letter { x with width := 0 } v
    .error .noMemory

def fillPlace (p : Place) (s : Supply) : Except Fault (Text × Supply) := do
  let s ← match p.selector with
    | none => pure s
    | some selector => s.select selector
  let (x, s) ← (Setting.ofMarks p.marks).widen p.width s
  let (x, s) ← x.limit p.precision s
  match p.kind with
  | none => .error .incomplete
  | some letter =>
    let (v, s) ← s.take
    match Kind.ofLetter? letter with
    | some k => return (← k.fitted letter x v, s)
    | none => .error (.unknownPlace letter p.index)

def fillPieces : List Piece → Supply → Except Fault Text
  | [], s => if s.used then .ok [] else .error .manyArguments
  | .symbol c :: rest, s => (c :: ·) <$> fillPieces rest s
  | .place p :: rest, s => do
    let (t, s) ← fillPlace p s
    return t ++ (← fillPieces rest s)

/-- A message with its places filled; one without arguments has no places. -/
def fill (message : Text) (arguments : List Data) : Except Fault Text :=
  if arguments.isEmpty then .ok message
  else fillPieces (Piece.read message) (.ofArguments arguments)

end ClipActions.Log.Message
