import ClipActions.Prompt
import ClipActions.Signature

/-!
Calls to the model. Code from outside knows them by name and arguments; whether it makes a call at all
shows only where the call arrives.
-/
namespace ClipActions

/-- A call to the model: a prompt of one's own, or an operation on a text. -/
inductive Ask where
  | generate (prompt system : Json)
  | apply (operation : Operation) (text language : Json)

namespace Ask

def generateName : Text := "generate"

def name : Ask → Text
  | generate .. => generateName
  | apply operation .. => operation.name

def signature : Operation → Signature
  | .translate => ⟨["text", "target_language"], []⟩
  | _ => ⟨["text"], []⟩

/-- The kind of the client that is asked, in messages. -/
def clientName : Text := "AIClient"

/-- What else is known of the client by name, and the types of that; none of it can be called. -/
def members : List (Text × Text) := [("config", "ProviderConfig"), ("model", "str"), ("endpoint", "str")]

def ofCall (name : Text) (arguments : List Json) : Checked Ask :=
  let argument (n : Nat) (absent : Json) : Json := arguments.getD n absent
  let checked (s : Signature) (call : Ask) : Checked Ask :=
    match s.faultInOrder? (clientName ++ "." ++ name) arguments.length with
    | some m => .error m
    | none => .ok call
  if name = generateName then
    checked ⟨["prompt"], ["system_prompt"]⟩ (generate (argument 0 .null) (argument 1 .null))
  else match Operation.all.find? (·.name = name) with
    | some operation =>
      checked (signature operation) (apply operation (argument 0 .null) (argument 1 (.str [])))
    | none => match members.lookup name with
      | some type => .error (.notCallable type)
      | none => .error (.noMember clientName name)

end Ask

/-- A call as it is made: one that is known, or one by a name and arguments in order. -/
inductive Call where
  | known (ask : Ask)
  | named (name : Text) (arguments : List Json)

namespace Call

def name : Call → Text
  | known ask => ask.name
  | named name _ => name

/-- What is asked, if the name and the arguments fit. -/
def resolve : Call → Checked Ask
  | known ask => .ok ask
  | named name arguments => Ask.ofCall name arguments

end Call
end ClipActions
