import ClipActions.Text.Basic

/-!
UTF-8. Writing fails on a lone surrogate. Reading comes in two forms: a lenient one, which puts one
U+FFFD for each longest piece that begins no character, and a strict one, which lets the three-byte
forms of surrogates pass and refuses every other fault.
-/
namespace ClipActions

abbrev Bytes := List UInt8

namespace Utf8

def encodeCode (n : Nat) : Bytes :=
  let tail (k : Nat) : UInt8 := (0x80 + n / Nat.pow 64 k % 64).toUInt8
  if n < 0x80 then [n.toUInt8]
  else if n < 0x800 then [(0xC0 + n / 64).toUInt8, tail 0]
  else if n < 0x10000 then [(0xE0 + n / 4096).toUInt8, tail 1, tail 0]
  else [(0xF0 + n / 262144).toUInt8, tail 2, tail 1, tail 0]

/-- The bytes of a text without lone surrogates. -/
def encode? : Text → Option Bytes
  | [] => some []
  | .char c :: rest => (encodeCode c.toNat ++ ·) <$> encode? rest
  | .lone _ :: _ => none

/-- What keeps a text from having bytes: after `index` code points, `count` lone surrogates. -/
structure Obstacle where
  first : Symbol
  index : Nat
  count : Nat
  deriving DecidableEq, Repr

/-- The first lone surrogates of a text, from one on of which `bad` holds. -/
def obstacleWhere? (bad : Symbol → Bool) (t : Text) : Option Obstacle :=
  let rest := t.dropWhile (!bad ·)
  rest.head?.map fun first =>
    ⟨first, t.length - rest.length, (rest.takeWhile Symbol.isLone).length⟩

def obstacle? (t : Text) : Option Obstacle := obstacleWhere? Symbol.isLone t

/-- Where a reader stands: between characters, or inside one that needs more bytes. -/
inductive State where
  | between
  /-- `need` bytes are missing, the next one between `low` and `high`; `code` is read so far. -/
  | inside (need code low high : Nat)
  deriving DecidableEq, Repr

/-- What the first byte of a character leaves to read; none if no character begins with it. -/
def lead? (surrogates : Bool) (b : Nat) : Option (Symbol ⊕ State) :=
  if b < 0x80 then some (.inl (.ofCode b))
  else if b < 0xC2 then none
  else if b < 0xE0 then some (.inr (.inside 1 (b - 0xC0) 0x80 0xBF))
  else if b < 0xF0 then
    let low := if b = 0xE0 then 0xA0 else 0x80
    let high := if b = 0xED ∧ surrogates = false then 0x9F else 0xBF
    some (.inr (.inside 2 (b - 0xE0) low high))
  else if b < 0xF5 then
    let low := if b = 0xF0 then 0x90 else 0x80
    let high := if b = 0xF4 then 0x8F else 0xBF
    some (.inr (.inside 3 (b - 0xF0) low high))
  else none

/-- U+FFFD, which stands for what cannot be read. -/
def replacement : Symbol := .char (Char.ofNat 0xFFFD)

/-- A byte that begins a character, read leniently. -/
def openLenient (b : Nat) : Text × State :=
  match lead? false b with
  | none => ([replacement], .between)
  | some (.inl s) => ([s], .between)
  | some (.inr state) => ([], state)

/-- One more byte, read leniently: the text it completes and the state after it. -/
def stepLenient : State → Nat → Text × State
  | .between, b => openLenient b
  | .inside need code low high, b =>
    if low ≤ b ∧ b ≤ high then
      let code := code * 64 + b % 64
      if need ≤ 1 then ([.ofCode code], .between) else ([], .inside (need - 1) code 0x80 0xBF)
    else
      let (out, state) := openLenient b
      (replacement :: out, state)

def decodeFrom (state : State) : Bytes → Text
  | [] => if state = .between then [] else [replacement]
  | b :: rest =>
    let (out, state) := stepLenient state b.toNat
    out ++ decodeFrom state rest

/-- The text of any bytes; faults become U+FFFD. -/
def decode (bytes : Bytes) : Text := decodeFrom .between bytes

def decodeStrictFrom (state : State) : Bytes → Option Text
  | [] => if state = .between then some [] else none
  | b :: rest =>
    match state with
    | .between =>
      match lead? true b.toNat with
      | none => none
      | some (.inl s) => (s :: ·) <$> decodeStrictFrom .between rest
      | some (.inr state) => decodeStrictFrom state rest
    | .inside need code low high =>
      if low ≤ b.toNat ∧ b.toNat ≤ high then
        let code := code * 64 + b.toNat % 64
        if need ≤ 1 then (.ofCode code :: ·) <$> decodeStrictFrom .between rest
        else decodeStrictFrom (.inside (need - 1) code 0x80 0xBF) rest
      else none

/-- The text of bytes without a fault; surrogates pass. -/
def decodeStrict? (bytes : Bytes) : Option Text := decodeStrictFrom .between bytes

end Utf8
end ClipActions
