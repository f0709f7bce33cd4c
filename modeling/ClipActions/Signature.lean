import ClipActions.Failure

/-! The arguments that a call takes, and why arguments do not fit. -/
namespace ClipActions

/-- The arguments that a call takes: those it needs, and those it accepts beside them. -/
structure Signature where
  needed : List Text
  more : List Text := []

namespace Signature

/-- Why a number of arguments in order does not fit. What is called counts as an argument itself. -/
def faultInOrder? (s : Signature) (called : Text) (given : Nat) : Option Misuse :=
  let least := s.needed.length
  let most := least + s.more.length
  if given < least then some (.fewArguments called (s.needed.drop given))
  else if most < given then some (.manyArguments called (least + 1) (most + 1) (given + 1))
  else none

/-- Why arguments of these names do not fit. -/
def faultByName? (s : Signature) (called : Text) (given : List Text) : Option Misuse :=
  match given.find? fun name => !(s.needed ++ s.more).contains name with
  | some name => some (.unexpected called name)
  | none =>
    match s.needed.filter fun name => !given.contains name with
    | [] => none
    | missing => some (.fewNamed called missing)

end Signature
end ClipActions
