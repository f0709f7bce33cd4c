import ClipActions.Ask

/-!
What an action does, as a value: it ends with a result, stops, or asks the model and goes on with
the answer. Whatever code an action has, its dealings with the model have this form.
-/
namespace ClipActions

/-- A course of calls to the model with a result of type `α`. -/
inductive Program (α : Type) where
  | done (result : α)
  | stop (h : Halt)
  | ask (call : Call) (next : Except Halt Json → Program α)

namespace Program

variable {α β : Type}

def map (f : α → β) : Program α → Program β
  | done a => done (f a)
  | stop h => stop h
  | ask call next => ask call fun answer => map f (next answer)

/-- The program of a computation that makes no call. -/
def ofChecked : Checked α → Program α
  | .ok a => done a
  | .error m => stop (.failed (.misuse m))

/-- One call whose answer, passed on by `f`, is the result; a failed call stops the program. -/
def askOnce (call : Call) (f : Json → α) : Program α :=
  ask call fun
    | .ok answer => done (f answer)
    | .error h => stop h

/-- How a program ends where no model can be asked. -/
def alone : Program α → Except Halt α
  | done a => .ok a
  | stop h => .error h
  | ask call next => alone (next (.error (.failed (.misuse (.noMember "NoneType" call.name)))))

end Program

structure Task where
  text : Json
  args : List Json
  config : Json

/-- The code of a plugin: what it does with a task, and its value of any shape. -/
abbrev Behaviour := Task → Program Data

/-- What loading a plugin file yields: the attributes it sets, and what stops it afterwards. -/
structure Export where
  attributes : List (Text × Value Behaviour)
  halt : Option Halt := none

end ClipActions
