import ClipActions.Failure

/-! What the two kinds of model services answer. -/
namespace ClipActions.Service

/-- A block of a reply; only blocks of type `text` count. -/
structure Block where
  type : Json := .null
  text : Json := .null

/-- How many tokens a call took, by the names of the service. -/
abbrev Usage := Json.Fields

/-- A reply: choices from one kind of service, blocks from the other. -/
structure Reply where
  choices : List Json := []
  blocks : List Block := []
  model : Json := .null
  usage : Option Usage := none

/-- What a call to a service meets. -/
abbrev Answer := Except Halt Reply

/-- What a service gives that does not answer. -/
def silence (message : Text := "no reply") : Answer :=
  .error (.failed (.thrown { kind := "RuntimeError", message }))

end ClipActions.Service
