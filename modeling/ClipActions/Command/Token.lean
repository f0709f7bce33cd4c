import ClipActions.Command.Grammar

/-!
The tokens of a command line, told apart before any of them has an effect: options, arguments, and
the mark that ends the options.
-/
namespace ClipActions.Command

/-- A token that is written like an option: the option as it is spelled, and what is joined to it. -/
structure Spelled where
  flag : Flag
  name : Text
  joined : Option Text := none
  deriving DecidableEq, Repr

/-- What a token is. -/
inductive Reading where
  | argument
  /-- The first `--`, after which no token is an option. -/
  | terminator
  | option (s : Spelled)
  /-- Written like an option that nobody knows. -/
  | unknown
  deriving DecidableEq, Repr

namespace Reading

def isOption : Reading → Bool
  | option _ | unknown => true
  | argument | terminator => false

end Reading

structure Token where
  text : Text
  reading : Reading
  deriving DecidableEq, Repr

namespace Grammar

def spellings (g : Grammar) : List (Text × Flag) :=
  g.flags.flatMap fun f => f.names.map (·, f)

def flag? (g : Grammar) (name : Text) : Option Flag := g.spellings.lookup name

/-- A token whose text up to an equals sign is an option. -/
def withEquals? (g : Grammar) (token : Text) : Option Spelled :=
  match token.cut (.char '=') with
  | (name, some value) => (g.flag? name).map (⟨·, name, some value⟩)
  | (_, none) => none

/-- The options that a token with two dashes may abbreviate. -/
def abbreviated (g : Grammar) (token : Text) : List Spelled :=
  let (lead, value) := token.cut (.char '=')
  (g.spellings.filter fun (name, _) => Text.startsWith lead name).map fun (name, f) =>
    ⟨f, name, value⟩

/-- The options that a token with one dash may stand for: one letter with a joined value, or the
beginning of a spelling. -/
def clustered (g : Grammar) (token : Text) : List Spelled :=
  g.spellings.filterMap fun (name, f) =>
    if name = token.take 2 then some ⟨f, name, some (token.drop 2)⟩
    else if Text.startsWith token name then some ⟨f, name, none⟩
    else none

/-- The options that a token may stand for without being one of their spellings. -/
def candidates (g : Grammar) (token : Text) : List Spelled :=
  if Text.startsWith "--" token then g.abbreviated token else g.clustered token

/-- What a token is that is no spelling of an option: a number and a text with a space are
arguments. -/
def readUnspelled (g : Grammar) (token : Text) : Except Fault Reading :=
  match g.candidates token with
  | [s] => .ok (.option s)
  | [] =>
    if Text.looksNegative token || token.contains (.char ' ') then .ok .argument else .ok .unknown
  | several => .error (.ambiguous token (several.map (·.name)))

/-- What a token is that stands before the end of the options. -/
def readToken (g : Grammar) (token : Text) : Except Fault Reading :=
  if token.head? ≠ some (.char '-') then .ok .argument
  else match g.flag? token with
    | some f => .ok (.option ⟨f, token, none⟩)
    | none =>
      if token.length = 1 then .ok .argument
      else match g.withEquals? token with
        | some s => .ok (.option s)
        | none => g.readUnspelled token

def endOfOptions : Text := "--"

def readTokens (g : Grammar) : List Text → Except Fault (List Token)
  | [] => .ok []
  | t :: rest =>
    if t = endOfOptions then .ok (⟨t, .terminator⟩ :: rest.map (⟨·, .argument⟩))
    else do
      let reading ← g.readToken t
      return ⟨t, reading⟩ :: (← readTokens g rest)

end Grammar
end ClipActions.Command
