import ClipActions.Command.Token

/-!
Matching a command line against a grammar. Options are taken one by one; before each of them, the
places for other arguments take as much as they can of what stands there.
-/
namespace ClipActions.Command

inductive Given where
  | nothing
  /-- A value was asked for, and only the mark that ends the options stood there. -/
  | emptied
  | text (t : Text)
  | whole (n : Int)
  deriving DecidableEq, Repr

/-- A part of a command line that has found its place. -/
inductive Binding where
  | flag (f : Flag) (v : Given)
  | slot (s : Slot) (values : List Text)
  deriving DecidableEq, Repr

/-- What comes of a part of a command line: bindings, and tokens that nobody knows. -/
structure Taken where
  bindings : List Binding := []
  extras : List Text := []
  deriving DecidableEq, Repr

def Taken.append (a b : Taken) : Taken := ⟨a.bindings ++ b.bindings, a.extras ++ b.extras⟩

instance : Append Taken := ⟨Taken.append⟩

namespace Place

def isTerminator (t : Token) : Bool := t.reading = .terminator

/-- Arguments and the end of the options. -/
def isPlain (t : Token) : Bool := !t.reading.isOption

/-- How many tokens a place takes from the beginning of a list, if they fill it. -/
def take? (p : Place) (tokens : List Token) : Option Nat :=
  let ends := (tokens.takeWhile isTerminator).length
  match p with
  | many => some (tokens.takeWhile isPlain).length
  | one =>
    match tokens.drop ends with
    | ⟨_, .argument⟩ :: rest => some (ends + 1 + (rest.takeWhile isTerminator).length)
    | _ => none
  | command =>
    match tokens.drop ends with
    | ⟨_, .argument⟩ :: _ => some tokens.length
    | _ => none

/-- The values of a place that takes tokens; the end of the options is none of them. -/
def values (p : Place) (tokens : List Token) : List Text :=
  let texts := tokens.map (·.text)
  match p with
  | command => texts
  | one | many => texts.erase Grammar.endOfOptions

end Place

/-- The places that are filled from the beginning of a list of tokens, and how many tokens that
takes; the other places wait. -/
def fill : List Slot → List Token → List Binding × List Slot × Nat
  | [], _ => ([], [], 0)
  | s :: slots, tokens =>
    match s.place.take? tokens with
    | none => ([], s :: slots, 0)
    | some n =>
      let (bindings, waiting, m) := fill slots (tokens.drop n)
      (.slot s (s.place.values (tokens.take n)) :: bindings, waiting, n + m)

structure Use where
  flag : Flag
  value : Option Text := none
  deriving DecidableEq, Repr

/-- What a token that is no argument comes to: uses of options, tokens that nobody knows, and how
many of the tokens after it are taken too. -/
structure Opened where
  uses : List Use := []
  extras : List Text := []
  following : Nat := 0
  deriving DecidableEq, Repr

/-- An option to which nothing is joined, and the tokens after it. -/
def openAlone (f : Flag) (rest : List Token) : Except Fault Opened :=
  if f.takesValue then
    match rest with
    | ⟨value, .argument⟩ :: _ => .ok { uses := [⟨f, some value⟩], following := 1 }
    | _ => .error (.valueMissing f.label)
  else .ok { uses := [⟨f, none⟩] }

/-- The option that the first letter of a joined text stands for: only one letter after one dash may
be joined to another. -/
def clusterNext? (g : Grammar) (name : Text) (letter : Symbol) : Option Flag :=
  if Text.startsWith "--" name then none else g.flag? [.char '-', letter]

/--
An option, spelled and joined to a text, and the tokens after it. The text is its value; if it takes
none, the text holds further letters, each of which must be an option too.
-/
def openJoined (g : Grammar) (f : Flag) (name joined : Text) (rest : List Token) :
    Except Fault Opened :=
  if f.takesValue then .ok { uses := [⟨f, some joined⟩] }
  else match joined with
    | [] => .error (.ignoredValue f.label [])
    | letter :: more =>
      match clusterNext? g name letter with
      | none => .error (.ignoredValue f.label (letter :: more))
      | some next => do
        let opened ←
          if more.isEmpty then openAlone next rest
          else openJoined g next [.char '-', letter] more rest
        return { opened with uses := ⟨f, none⟩ :: opened.uses }
termination_by joined.length

def openOption (g : Grammar) (s : Spelled) (rest : List Token) : Except Fault Opened :=
  match s.joined with
  | none => openAlone s.flag rest
  | some joined => openJoined g s.flag s.name joined rest

def openToken (g : Grammar) (t : Token) (rest : List Token) : Except Fault Opened :=
  match t.reading with
  | .option s => openOption g s rest
  | _ => .ok { extras := [t.text] }

/-- The binding of an option that is used; a wish for help or for the version is granted at once. -/
def Use.bind (g : Grammar) (u : Use) : Except Stop Binding :=
  match u.flag.purpose, u.value with
  | .help, _ => .error (.help g)
  | .version v, _ => .error (.version v)
  | .whole, some t =>
    if t = Grammar.endOfOptions then .ok (.flag u.flag .emptied)
    else match t.typedInt? with
      | some n => .ok (.flag u.flag (.whole n))
      | none => .error (.fault g.program (.notWhole u.flag.label t))
  | .text, some t =>
    .ok (.flag u.flag (if t = Grammar.endOfOptions then .emptied else .text t))
  | _, _ => .ok (.flag u.flag .nothing)

/-- A token that is no argument, with its effects: what is taken, and how many tokens follow it. -/
def takeToken (g : Grammar) (t : Token) (rest : List Token) : Except Stop (Taken × Nat) := do
  let opened ← (openToken g t rest).mapError (.fault g.program)
  let bindings ← opened.uses.mapM (Use.bind g)
  return (⟨bindings, opened.extras⟩, opened.following)

theorem length_of_dropWhile {p : Token → Bool} {tokens rest : List Token} {t : Token}
    (h : tokens.dropWhile p = t :: rest) : rest.length < tokens.length := by
  have := (List.dropWhile_suffix p : tokens.dropWhile p <:+ tokens).length_le
  simp only [h, List.length_cons] at this
  omega

/-- The tokens in the places of a grammar; the places that nothing fills are left. -/
def matchTokens (g : Grammar) (slots : List Slot) (tokens : List Token) :
    Except Stop (Taken × List Slot) :=
  let plain := tokens.takeWhile Place.isPlain
  match _ : tokens.dropWhile Place.isPlain with
  | [] =>
    let (bindings, waiting, n) := fill slots tokens
    .ok (⟨bindings, (tokens.drop n).map (·.text)⟩, waiting)
  | t :: rest => do
    let (bindings, waiting, n) := if plain.isEmpty then ([], slots, 0) else fill slots tokens
    if n = 0 then
      let (taken, following) ← takeToken g t rest
      let (more, left) ← matchTokens g waiting (rest.drop following)
      return (⟨bindings, plain.map (·.text)⟩ ++ taken ++ more, left)
    else
      let (more, left) ← matchTokens g waiting (tokens.drop n)
      return (⟨bindings, []⟩ ++ more, left)
termination_by tokens.length
decreasing_by
  all_goals
    have := length_of_dropWhile ‹tokens.dropWhile Place.isPlain = t :: rest›
    simp only [List.length_drop]
    omega

def Grammar.take (g : Grammar) (line : List Text) : Except Stop Taken := do
  let tokens ← (g.readTokens line).mapError (.fault g.program)
  let (taken, left) ← matchTokens g g.slots tokens
  let missing := left.filter (·.place ≠ .command)
  if missing.isEmpty then return taken
  else throw (.fault g.program (.missing (missing.map (·.name))))

end ClipActions.Command
