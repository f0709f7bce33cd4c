/-!
Text as a sequence of code points. A text read from outside may hold half of a surrogate pair that
stands alone; such a text can be shown and compared but has no bytes in UTF-8.
-/
namespace ClipActions

/-- A code point of a text: a character, or half of a surrogate pair that stands alone. -/
inductive Symbol where
  | char (c : Char)
  | lone (half : Fin 2048)
  deriving DecidableEq, Repr, Inhabited

namespace Symbol

/-- The number of a code point; the halves follow U+D7FF. -/
def code : Symbol → Nat
  | char c => c.toNat
  | lone h => 0xD800 + h.val

/-- The code point of a number; a number beyond the last code point gives U+FFFD. -/
def ofCode (n : Nat) : Symbol :=
  if h : 0xD800 ≤ n ∧ n < 0xE000 then lone ⟨n - 0xD800, by omega⟩
  else if h : n.isValidChar then char (Char.ofNatAux n h)
  else char (Char.ofNat 0xFFFD)

instance : Coe Char Symbol := ⟨char⟩

/-- Whether a code point lies in one of the closed ranges of a table. -/
def within (table : List (Nat × Nat)) (s : Symbol) : Bool :=
  table.any fun (low, high) => low ≤ s.code && s.code ≤ high

def digit? : Symbol → Option Nat
  | char c => if '0' ≤ c ∧ c ≤ '9' then some (c.toNat - '0'.toNat) else none
  | lone _ => none

/-- The value of an ASCII hexadecimal digit in either case. -/
def hexDigit? : Symbol → Option Nat
  | char c =>
    if '0' ≤ c ∧ c ≤ '9' then some (c.toNat - '0'.toNat)
    else if 'a' ≤ c ∧ c ≤ 'f' then some (c.toNat - 'a'.toNat + 10)
    else if 'A' ≤ c ∧ c ≤ 'F' then some (c.toNat - 'A'.toNat + 10)
    else none
  | lone _ => none

/-- An ASCII letter in lower case; every other code point is kept. -/
def asciiLower : Symbol → Symbol
  | char c => char (if 'A' ≤ c ∧ c ≤ 'Z' then Char.ofNat (c.toNat + 32) else c)
  | lone h => lone h

/-- An ASCII letter in upper case; every other code point is kept. -/
def asciiUpper : Symbol → Symbol
  | char c => char (if 'a' ≤ c ∧ c ≤ 'z' then Char.ofNat (c.toNat - 32) else c)
  | lone h => lone h

def isAsciiLetter : Symbol → Bool
  | char c => ('a' ≤ c && c ≤ 'z') || ('A' ≤ c && c ≤ 'Z')
  | lone _ => false

def isLone : Symbol → Bool
  | lone _ => true
  | char _ => false

def isAsciiDigit (s : Symbol) : Bool := s.digit?.isSome

end Symbol

/-- A text is the list of its code points. -/
abbrev Text := List Symbol

namespace Text

def ofString (s : String) : Text := s.toList.map .char

instance : Coe String Text := ⟨ofString⟩

/-- The characters of a text that holds no lone surrogate. -/
def toString? (t : Text) : Option String :=
  String.ofList <$> t.mapM fun
    | .char c => some c
    | .lone _ => none

/-- Lexicographic order by code point. -/
def le : Text → Text → Bool
  | [], _ => true
  | _ :: _, [] => false
  | a :: s, b :: t => a.code < b.code || (a.code == b.code && le s t)

def sort (ts : List Text) : List Text := ts.mergeSort le

/-- The texts one after another with a separator between neighbours. -/
def joinWith (separator : Text) (ts : List Text) : Text := separator.intercalate ts

def splitOn (separator : Symbol) : Text → List Text
  | [] => [[]]
  | c :: rest =>
    if c = separator then [] :: splitOn separator rest
    else match splitOn separator rest with
      | [] => [[c]]
      | piece :: pieces => (c :: piece) :: pieces

/-- The rest of a text that begins with a given text. -/
def dropLead? : Text → Text → Option Text
  | [], t => some t
  | _ :: _, [] => none
  | a :: lead, b :: t => if a = b then dropLead? lead t else none

theorem length_of_dropLead? {lead t rest : Text} (h : dropLead? lead t = some rest) :
    t.length = lead.length + rest.length := by
  fun_induction dropLead? lead t with
  | case1 t => simp_all
  | case2 => simp at h
  | case3 a lead t ih => simp [ih h]; omega
  | case4 => simp at h

def startsWith (lead t : Text) : Bool := (dropLead? lead t).isSome

def endsWith (tail t : Text) : Bool := startsWith tail.reverse t.reverse

/-- Whether a text occurs somewhere in another. -/
def occursIn (needle : Text) : Text → Bool
  | [] => needle.isEmpty
  | c :: rest => startsWith needle (c :: rest) || occursIn needle rest

/--
Every occurrence of `old`, found from the left and without overlap, becomes `new`. The inserted
text is not searched again. An empty `old` replaces nothing.
-/
def replaceAll (old new : Text) : Text → Text
  | [] => []
  | c :: rest =>
    if old = [] then c :: rest
    else match _ : dropLead? old (c :: rest) with
      | some after => new ++ replaceAll old new after
      | none => c :: replaceAll old new rest
termination_by t => t.length
decreasing_by
  · have hold : old.length ≠ 0 := by simpa using ‹¬old = []›
    have := length_of_dropLead? ‹_ = some after›
    simp only [List.length_cons] at this ⊢
    omega
  · simp

/-- The text up to the first occurrence of a code point, and what follows that occurrence. -/
def cut (separator : Symbol) : Text → Text × Option Text
  | [] => ([], none)
  | c :: rest =>
    if c = separator then ([], some rest)
    else
      let (before, after) := cut separator rest
      (c :: before, after)

/-- What follows the last occurrence of a code point; the whole text if there is none. -/
def afterLast (separator : Symbol) (t : Text) : Text :=
  (t.reverse.takeWhile (· ≠ separator)).reverse

/-- The end of a text without the code points of a class. -/
def dropTail (p : Symbol → Bool) (t : Text) : Text := (t.reverse.dropWhile p).reverse

/-- Without the code points of a class at either end. -/
def trimBy (p : Symbol → Bool) (t : Text) : Text := dropTail p (t.dropWhile p)

/-- The letters A to Z in lower case. -/
def asciiLower (t : Text) : Text := t.map Symbol.asciiLower

/-- The letters a to z in upper case. -/
def asciiUpper (t : Text) : Text := t.map Symbol.asciiUpper

end Text
end ClipActions
