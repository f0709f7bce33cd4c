import ClipActions.Text.Basic

/-!
Messages with places for arguments, as log records from outside the library may have them; they are
filled in `Log.Message`. A percent sign begins a place: the name of an argument in parentheses,
marks, a width, a point and a precision follow, and last the letter of its kind. Two percent signs
stand for one.
-/
namespace ClipActions.Log

/-- A width or a precision: written in the message, or the next argument. -/
inductive Extent where
  | fixed (n : Nat)
  | given
  deriving DecidableEq, Repr

/-- The name of an argument; an open one lacks its last parenthesis. -/
inductive Selector where
  | name (t : Text)
  | unclosed
  deriving DecidableEq, Repr

/-- A place for an argument, as it is written. -/
structure Place where
  selector : Option Selector
  marks : List Symbol
  width : Option Extent
  precision : Option Extent
  /-- The letter of the kind; none if the message ends before it. -/
  kind : Option Symbol
  /-- The position of that letter in the message. -/
  index : Nat
  deriving DecidableEq, Repr

inductive Piece where
  | symbol (s : Symbol)
  | place (p : Place)
  deriving DecidableEq, Repr

namespace Place

/-- The text up to the parenthesis that closes `depth` open ones, and what follows it. -/
def closing (depth : Nat) : Text → Text × Option Text
  | [] => ([], none)
  | c :: rest =>
    if c = .char ')' ∧ depth = 1 then ([], some rest)
    else
      let inner :=
        if c = .char '(' then depth + 1 else if c = .char ')' then depth - 1 else depth
      let (name, after) := closing inner rest
      (c :: name, after)

/-- The name that a place begins with, and what follows it. -/
def readSelector : Text → Option Selector × Text
  | .char '(' :: rest =>
    match closing 1 rest with
    | (name, some after) => (some (.name name), after)
    | (_, none) => (some .unclosed, [])
  | t => (none, t)

def isMark (s : Symbol) : Bool :=
  s = .char '-' || s = .char '+' || s = .char ' ' || s = .char '#' || s = .char '0'

/-- A number without a sign; no digits make zero. -/
def number (digits : Text) : Nat := (digits.filterMap Symbol.digit?).foldl (fun n d => n * 10 + d) 0

def readWidth : Text → Option Extent × Text
  | .char '*' :: rest => (some .given, rest)
  | t =>
    let digits := t.takeWhile Symbol.isAsciiDigit
    (if digits.isEmpty then none else some (.fixed (number digits)), t.dropWhile Symbol.isAsciiDigit)

def readPrecision : Text → Option Extent × Text
  | .char '.' :: .char '*' :: rest => (some .given, rest)
  | .char '.' :: rest =>
    (some (.fixed (number (rest.takeWhile Symbol.isAsciiDigit))), rest.dropWhile Symbol.isAsciiDigit)
  | t => (none, t)

/-- What follows a letter for the size of a number, which says nothing. -/
def skipSize : Text → Text
  | .char 'h' :: rest | .char 'l' :: rest | .char 'L' :: rest => rest
  | t => t

/-- A place after its percent sign, in a message of `length` symbols, and what follows it. -/
def read (length : Nat) (t : Text) : Place × Text :=
  let (selector, t) := readSelector t
  let marks := t.takeWhile isMark
  let (width, t) := readWidth (t.dropWhile isMark)
  let (precision, t) := readPrecision t
  let t := skipSize t
  ({ selector, marks, width, precision, kind := t.head?, index := length - t.length }, t.tail)

theorem length_of_closing {depth : Nat} {t name rest : Text}
    (h : closing depth t = (name, some rest)) : rest.length ≤ t.length := by
  induction t generalizing depth name with
  | nil => simp [closing] at h
  | cons c t ih =>
    rw [closing] at h
    split at h
    · simp_all
    · simp only [Prod.mk.injEq] at h
      have := ih (Prod.ext rfl h.2)
      simp only [List.length_cons]
      omega

theorem length_readSelector (t : Text) : (readSelector t).2.length ≤ t.length := by
  unfold readSelector
  split
  · split
    · have := length_of_closing ‹_›
      simp only [List.length_cons]
      omega
    · simp
  · simp

theorem length_readWidth (t : Text) : (readWidth t).2.length ≤ t.length := by
  unfold readWidth
  split
  · simp
  · exact (List.dropWhile_sublist _).length_le

theorem length_readPrecision (t : Text) : (readPrecision t).2.length ≤ t.length := by
  unfold readPrecision
  split
  · simp only [List.length_cons]
    omega
  · rename_i rest _
    have := (List.dropWhile_sublist Symbol.isAsciiDigit : (rest.dropWhile _).Sublist rest).length_le
    simp only [List.length_cons]
    omega
  · simp

theorem length_skipSize (t : Text) : (skipSize t).length ≤ t.length := by
  unfold skipSize
  split <;> simp

theorem length_read (length : Nat) (t : Text) : (read length t).2.length ≤ t.length := by
  have h1 := length_readSelector t
  have h2 := (List.dropWhile_sublist isMark : List.Sublist _ (readSelector t).2).length_le
  have h3 := length_readWidth ((readSelector t).2.dropWhile isMark)
  have h4 := length_readPrecision (readWidth ((readSelector t).2.dropWhile isMark)).2
  have h5 := length_skipSize (readPrecision (readWidth ((readSelector t).2.dropWhile isMark)).2).2
  simp only [read, List.length_tail]
  omega

end Place

/-- The parts of the rest of a message of `length` symbols. -/
def Piece.readFrom (length : Nat) : Text → List Piece
  | [] => []
  | .char '%' :: .char '%' :: rest => .symbol (.char '%') :: readFrom length rest
  | .char '%' :: rest =>
    .place (Place.read length rest).1 :: readFrom length (Place.read length rest).2
  | s :: rest => .symbol s :: readFrom length rest
termination_by t => t.length
decreasing_by
  · simp only [List.length_cons]
    omega
  · have := Place.length_read length rest
    simp only [List.length_cons]
    omega
  · simp only [List.length_cons]
    omega

def Piece.read (message : Text) : List Piece := readFrom message.length message

end ClipActions.Log
