import ClipActions.Program

/-! Actions: named units of work that turn an input text into an output. -/
namespace ClipActions

structure Action where
  id : Text
  aliases : List Text := []
  description : Text
  /-- The header of the printed output. -/
  title : Text
  /-- What is printed before the work begins. -/
  progress : Option Text := none
  run : Task → Program Json

namespace Action

/-- The names that an action answers to: its identifier and then its aliases. -/
def names (a : Action) : List Text := a.id :: a.aliases

end Action
end ClipActions
