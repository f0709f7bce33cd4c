import ClipActions.Failure

/-!
Errors raised by name with arguments, as code outside the library does it: which kind they become,
what they say, and which of them are interruptions. With these a host whose services and plugins are
described in a document can be set up; a run itself meets the halts that they become.
-/
namespace ClipActions.Raised

def osKinds : List Text := ["OSError", "ConnectionRefusedError", "FileNotFoundError"]

/-- The number of an operating-system error, which may be any value; it needs a reason beside it. -/
def errno? (kind : Text) (arguments : List Data) : Option Data :=
  match arguments with
  | n :: _ :: _ => if osKinds.contains kind && !n.isNull then some n else none
  | _ => none

/-- What an error says: nothing, its argument, or all of them. -/
def message (kind : Text) (arguments : List Data) : Text :=
  match arguments with
  | [] => []
  | [a] => if kind = "KeyError" then a.quotedForm else a.display
  | [n, reason] =>
    if osKinds.contains kind then "[Errno " ++ n.display ++ "] " ++ reason.display
    else (Value.tuple arguments).quotedForm
  | [n, reason, file] =>
    if osKinds.contains kind then
      "[Errno " ++ n.display ++ "] " ++ reason.display ++ ": " ++ file.quotedForm
    else (Value.tuple arguments).quotedForm
  | _ => (Value.tuple arguments).quotedForm

/-- The kind of an error; the general operating-system error takes the kind of its number. -/
def kind (named : Text) (arguments : List Data) : Text :=
  match (errno? named arguments).bind Value.whole? with
  | some n => if named = "OSError" then OsFault.kindOf n else named
  | none => named

def exitCode : List Data → Data
  | [] => .null
  | [code] => code
  | arguments => .tuple arguments

/-- What raising an error by name with arguments does. -/
def halt (named : Text) (arguments : List Data) : Halt :=
  let text := message named arguments
  if named = "SystemExit" then .interrupted (.exit (exitCode arguments) text)
  else if named = "KeyboardInterrupt" then .interrupted (.keyboard text)
  else if named = "CancelledError" then .interrupted (.cancelled text)
  else .failed (.thrown { kind := kind named arguments, message := text })

end ClipActions.Raised
