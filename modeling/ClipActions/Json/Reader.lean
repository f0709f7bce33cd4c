import ClipActions.Json.Basic
import ClipActions.Runtime

/-!
Reading JSON text. A fault names what is wrong and where: the line, the column and the number of
code points before it. `NaN`, `Infinity` and `-Infinity` are accepted as numbers. Of fields with
one name the last value counts, at the place of the first.
-/
namespace ClipActions.Json

/-- What holds other values. -/
inductive Container where
  | array
  | object
  deriving DecidableEq, Repr

def Container.name : Container → Text
  | array => "array"
  | object => "object"

/-- What is wrong with a JSON text. A reader takes the beginning of a text and leaves the rest. -/
inductive Problem where
  | expectingValue
  | expectingName
  | expectingColon
  | expectingComma
  | unterminated
  | control
  | badEscape
  | badUnicode
  | extraData
  | byteOrderMark
  | tooManyDigits (count : Nat)
  /-- One container more than may stand within each other. -/
  | tooDeep (c : Container)
  deriving DecidableEq, Repr

/-- Whole numbers have at most this many digits. -/
def maxDigits : Nat := 4300

def Problem.message : Problem → Text
  | expectingValue => "Expecting value"
  | expectingName => "Expecting property name enclosed in double quotes"
  | expectingColon => "Expecting ':' delimiter"
  | expectingComma => "Expecting ',' delimiter"
  | unterminated => "Unterminated string starting at"
  | control => "Invalid control character at"
  | badEscape => "Invalid \\escape"
  | badUnicode => "Invalid \\uXXXX escape"
  | extraData => "Extra data"
  | byteOrderMark => "Unexpected UTF-8 BOM (decode using utf-8-sig)"
  | tooManyDigits count =>
    "Exceeds the limit (" ++ Text.ofNat maxDigits ++
      " digits) for integer string conversion: value has " ++ Text.ofNat count ++
      " digits; use sys.set_int_max_str_digits() to increase the limit"
  | tooDeep c => c.name ++ " nested too deeply"

/-- A problem and how many code points were left where it was found. -/
structure Stop where
  problem : Problem
  left : Nat

/-- A problem and its place in the text. -/
structure Fault where
  problem : Problem
  line : Nat
  column : Nat
  offset : Nat

/-- The container that is nested too deeply, if this is what is wrong. -/
def Problem.tooDeep? : Problem → Option Container
  | tooDeep c => some c
  | _ => none

def Fault.message (f : Fault) : Text :=
  match f.problem with
  | .tooManyDigits _ => f.problem.message
  | _ =>
    f.problem.message ++ ": line " ++ Text.ofNat f.line ++ " column " ++ Text.ofNat f.column ++
      " (char " ++ Text.ofNat f.offset ++ ")"

/-- The place of a stop within the text that was read. -/
def Stop.locate (text : Text) (stop : Stop) : Fault :=
  let offset := text.length - stop.left
  let before := text.take offset
  let newline : Symbol := .char '\n'
  { problem := stop.problem
    line := before.count newline + 1
    column := (before.reverse.takeWhile (· ≠ newline)).length + 1
    offset }

/-- JSON's own white space. -/
def isSpace (s : Symbol) : Bool :=
  s = .char ' ' || s = .char '\t' || s = .char '\r' || s = .char '\n'

def skipSpace (t : Text) : Text := t.dropWhile isSpace

/-- A piece of a string: a code point that stands for itself, or a unit written by its number. -/
inductive Piece where
  | plain (s : Symbol)
  | unit (u : Nat)

/-- Two units that are the halves of one code point are joined. -/
def joinPieces : List Piece → Text
  | [] => []
  | .plain s :: rest => s :: joinPieces rest
  | .unit u :: .unit v :: rest =>
    if 0xD800 ≤ u ∧ u < 0xDC00 ∧ 0xDC00 ≤ v ∧ v < 0xE000 then
      .ofCode (0x10000 + (u - 0xD800) * 1024 + (v - 0xDC00)) :: joinPieces rest
    else .ofCode u :: joinPieces (.unit v :: rest)
  | .unit u :: rest => .ofCode u :: joinPieces rest

/-- What a backslash and one code point stand for. -/
def escape? (s : Symbol) : Option Symbol :=
  match s with
  | .char '"' => some (.char '"')
  | .char '\\' => some (.char '\\')
  | .char '/' => some (.char '/')
  | .char 'b' => some (.char '\x08')
  | .char 'f' => some (.char '\x0c')
  | .char 'n' => some (.char '\n')
  | .char 'r' => some (.char '\r')
  | .char 't' => some (.char '\t')
  | _ => none

def hex4? (a b c d : Symbol) : Option Nat := do
  return (((← a.hexDigit?) * 16 + (← b.hexDigit?)) * 16 + (← c.hexDigit?)) * 16 + (← d.hexDigit?)

/-- The pieces of a string up to its closing quote. -/
def readPieces : Text → Except Stop (List Piece × Text)
  | [] => .error ⟨.unterminated, 0⟩
  | c :: rest =>
    if c = .char '"' then .ok ([], rest)
    else if c = .char '\\' then
      match rest with
      | [] => .error ⟨.unterminated, 0⟩
      | e :: more =>
        if e = .char 'u' then
          match more with
          | h₁ :: h₂ :: h₃ :: h₄ :: tail =>
            if tail.isEmpty then .error ⟨.badUnicode, rest.length⟩
            else match hex4? h₁ h₂ h₃ h₄ with
              | none => .error ⟨.badUnicode, rest.length⟩
              | some u => do
                let (ps, left) ← readPieces tail
                return (.unit u :: ps, left)
          | _ => .error ⟨.badUnicode, rest.length⟩
        else match escape? e with
          | none => .error ⟨.badEscape, rest.length + 1⟩
          | some s => do
            let (ps, left) ← readPieces more
            return (.plain s :: ps, left)
    else if c.code < 0x20 then .error ⟨.control, rest.length + 1⟩
    else do
      let (ps, left) ← readPieces rest
      return (.plain c :: ps, left)

/-- A string whose opening quote has been taken. One without an end is faulty at that quote. -/
def readString (t : Text) : Except Stop (Text × Text) :=
  match readPieces t with
  | .ok (ps, left) => .ok (joinPieces ps, left)
  | .error ⟨.unterminated, _⟩ => .error ⟨.unterminated, t.length + 1⟩
  | .error stop => .error stop

def takeDigits (t : Text) : Text × Text := t.span Symbol.isAsciiDigit

def digitsValue (ds : Text) : Nat := Radix.value 10 (ds.filterMap Symbol.digit?)

def readFraction (t : Text) : Text × Text :=
  match t with
  | .char '.' :: rest =>
    match takeDigits rest with
    | ([], _) => ([], t)
    | (ds, left) => (ds, left)
  | _ => ([], t)

def readExponent (t : Text) : Option Int × Text :=
  match t with
  | e :: rest =>
    if e = .char 'e' ∨ e = .char 'E' then
      let (negative, digits) := match rest with
        | .char '-' :: more => (true, more)
        | .char '+' :: more => (false, more)
        | _ => (false, rest)
      match takeDigits digits with
      | ([], _) => (none, t)
      | (ds, left) =>
        let n : Int := digitsValue ds
        (some (if negative then -n else n), left)
    else (none, t)
  | [] => (none, t)

/-- The whole part of a number: a zero alone, or digits that begin with another one. -/
def readWhole? (t : Text) : Option (Text × Text) :=
  match t with
  | .char '0' :: rest => some ("0", rest)
  | _ =>
    match takeDigits t with
    | ([], _) => none
    | parts => some parts

def readNumber (t : Text) : Except Stop (Json × Text) :=
  let (negative, body) := match t with
    | .char '-' :: rest => (true, rest)
    | _ => (false, t)
  match readWhole? body with
  | none => .error ⟨.expectingValue, t.length⟩
  | some (whole, rest) =>
    let (fraction, rest) := readFraction rest
    let (exponent, rest) := readExponent rest
    if fraction.isEmpty && exponent.isNone then
      if maxDigits < whole.length then .error ⟨.tooManyDigits whole.length, t.length⟩
      else
        let n : Int := digitsValue whole
        .ok (.int (if negative then -n else n), rest)
    else
      let ds := whole ++ fraction
      .ok (.float (.ofDecimal negative (digitsValue ds) ds.length
        (exponent.getD 0 - fraction.length)), rest)

def words : List (Text × Json) := [
  ("null", .null), ("true", .bool true), ("false", .bool false), ("NaN", .float .nan),
  ("Infinity", .float (.infinity false)), ("-Infinity", .float (.infinity true))]

def readWord? (t : Text) : Option (Json × Text) :=
  words.findSome? fun (word, j) => (Text.dropLead? word t).map (j, ·)

mutual

/-- A value in which at most `room` containers stand within each other. Twice the length of the text
and one more is fuel enough. -/
def readValue (room : Nat) : Nat → Text → Except Stop (Json × Text)
  | 0, t => .error ⟨.expectingValue, t.length⟩
  | fuel + 1, t =>
    match t with
    | [] => .error ⟨.expectingValue, 0⟩
    | c :: rest =>
      if c = .char '"' then do
        let (s, left) ← readString rest
        return (.str s, left)
      else if c = .char '\x7b' then
        match room, skipSpace rest with
        | 0, _ => .error ⟨.tooDeep .object, rest.length + 1⟩
        | _, .char '\x7d' :: left => .ok (.obj [], left)
        | room + 1, inner => do
          let (fields, left) ← readFields room fuel inner
          return (.obj (Fields.update [] fields), left)
      else if c = .char '[' then
        match room, skipSpace rest with
        | 0, _ => .error ⟨.tooDeep .array, rest.length + 1⟩
        | _, .char ']' :: left => .ok (.arr [], left)
        | room + 1, inner => do
          let (items, left) ← readItems room fuel inner
          return (.arr items, left)
      else match readWord? t with
        | some found => .ok found
        | none => readNumber t

/-- The items of an array that has one, up to its end. -/
def readItems (room : Nat) : Nat → Text → Except Stop (List Json × Text)
  | 0, t => .error ⟨.expectingValue, t.length⟩
  | fuel + 1, t => do
    let (j, left) ← readValue room fuel t
    match skipSpace left with
    | .char ']' :: left => return ([j], left)
    | .char ',' :: left =>
      let (js, left) ← readItems room fuel (skipSpace left)
      return (j :: js, left)
    | left => .error ⟨.expectingComma, left.length⟩

def readFields (room : Nat) : Nat → Text → Except Stop (List (Text × Json) × Text)
  | 0, t => .error ⟨.expectingName, t.length⟩
  | fuel + 1, t =>
    match t with
    | .char '"' :: rest => do
      let (name, left) ← readString rest
      match skipSpace left with
      | .char ':' :: left =>
        let (j, left) ← readValue room fuel (skipSpace left)
        match skipSpace left with
        | .char '\x7d' :: left => return ([(name, j)], left)
        | .char ',' :: left =>
          let (fields, left) ← readFields room fuel (skipSpace left)
          return ((name, j) :: fields, left)
        | left => .error ⟨.expectingComma, left.length⟩
      | left => .error ⟨.expectingColon, left.length⟩
    | _ => .error ⟨.expectingName, t.length⟩

end

variable [Runtime]

/-- A value with nothing but white space around it. -/
def readStep (t : Text) : Except Stop Json := do
  let inner := skipSpace t
  let (j, left) ← readValue Runtime.jsonDepth (2 * inner.length + 2) inner
  match skipSpace left with
  | [] => return j
  | left => .error ⟨.extraData, left.length⟩

def read (t : Text) : Except Fault Json :=
  let result : Except Stop Json := match t with
    | .char '\uFEFF' :: _ => .error ⟨.byteOrderMark, t.length⟩
    | _ => readStep t
  result.mapError (Stop.locate t)

end ClipActions.Json
