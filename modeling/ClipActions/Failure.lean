import ClipActions.Json.Reader

/-!
Why a computation stops: a failure, which a caller may report and go on, or an interruption, which
ends the run. A failure names its cause; its kind and its message are functions of the cause.
-/
namespace ClipActions

structure OsFault where
  code : Nat
  reason : Text
  path : Text
  deriving DecidableEq, Repr

namespace OsFault

def notFound (path : Text) : OsFault := ⟨2, "No such file or directory", path⟩

def denied (path : Text) : OsFault := ⟨13, "Permission denied", path⟩

def fileExists (path : Text) : OsFault := ⟨17, "File exists", path⟩

def notDirectory (path : Text) : OsFault := ⟨20, "Not a directory", path⟩

def isDirectory (path : Text) : OsFault := ⟨21, "Is a directory", path⟩

def nameTooLong (path : Text) : OsFault := ⟨36, "File name too long", path⟩

/-- Whether a fault says no more than that nothing stands at a path. -/
def meansAbsent (f : OsFault) : Bool := f.code ∈ [2, 9, 20, 40]

def kindOf (code : Int) : Text :=
  if code ∈ [1, 13] then "PermissionError"
  else if code = 2 then "FileNotFoundError"
  else if code = 3 then "ProcessLookupError"
  else if code = 4 then "InterruptedError"
  else if code = 10 then "ChildProcessError"
  else if code ∈ [11, 114, 115] then "BlockingIOError"
  else if code = 17 then "FileExistsError"
  else if code = 20 then "NotADirectoryError"
  else if code = 21 then "IsADirectoryError"
  else if code ∈ [32, 108] then "BrokenPipeError"
  else if code = 103 then "ConnectionAbortedError"
  else if code = 104 then "ConnectionResetError"
  else if code = 110 then "TimeoutError"
  else if code = 111 then "ConnectionRefusedError"
  else "OSError"

def message (f : OsFault) : Text :=
  "[Errno " ++ Text.ofNat f.code ++ "] " ++ f.reason ++ ": " ++ f.path.quoted

end OsFault

/-- A use that a value of its shape does not allow. -/
inductive Misuse where
  /-- A value of a type has no such member. -/
  | noMember (type member : Text)
  | noLength (type : Text)
  | notIterable (type : Text)
  | notSubscriptable (type : Text)
  /-- A value of a type cannot name an entry. -/
  | unhashable (type : Text)
  | noEntry (key : Text)
  /-- What is put in the place of a placeholder must be a text. -/
  | replacement (type : Text)
  /-- What is joined must be texts; the first that is none stands at `index`. -/
  | joined (index : Nat) (type : Text)
  /-- A call lacks arguments that are given in order. -/
  | fewArguments (called : Text) (missing : List Text)
  /-- A call lacks arguments that are given by name. -/
  | fewNamed (called : Text) (missing : List Text)
  /-- A call takes no argument of this name. -/
  | unexpected (called argument : Text)
  /-- A call takes at least and at most so many arguments. -/
  | manyArguments (called : Text) (least most given : Nat)
  /-- An argument of a call is given by its place and by its name. -/
  | twice (called argument : Text)
  /-- An argument of a call is given by its name and among the fields. -/
  | named (called argument : Text)
  | notCallable (type : Text)
  /-- A value of a type cannot be compared with a number. -/
  | notComparable (type : Text)
  /-- A number of items must be whole. -/
  | brokenCount
  /-- What makes a table are pairs; the first item that is no row of values stands at `index`. -/
  | notRow (index : Nat)
  /-- What makes a table are pairs; the first row that is none stands at `index`. -/
  | notPair (index size : Nat)
  deriving DecidableEq, Repr

namespace Misuse

def kind : Misuse → Text
  | noMember .. => "AttributeError"
  | noEntry _ => "KeyError"
  | notPair .. => "ValueError"
  | _ => "TypeError"

/-- Several texts as part of a sentence. -/
def enumeration : List Text → Text
  | [] => []
  | [t] => t
  | [s, t] => s ++ " and " ++ t
  | ts => Text.joinWith ", " ts.dropLast ++ ", and " ++ ts.getLast?.getD []

def lacking (called kind : Text) (missing : List Text) : Text :=
  let plural : Text := if missing.length = 1 then [] else "s"
  called ++ "() missing " ++ Text.ofNat missing.length ++ " required " ++ kind ++ " argument" ++
    plural ++ ": " ++ enumeration (missing.map Text.quoted)

def message : Misuse → Text
  | noMember type member => "'" ++ type ++ "' object has no attribute '" ++ member ++ "'"
  | noLength type => "object of type '" ++ type ++ "' has no len()"
  | notIterable type => "'" ++ type ++ "' object is not iterable"
  | notSubscriptable type => "'" ++ type ++ "' object is not subscriptable"
  | unhashable type => "unhashable type: '" ++ type ++ "'"
  | noEntry key => key.quoted
  | replacement type =>
    let shown : Text := if type = "NoneType" then "None" else type
    "replace() argument 2 must be str, not " ++ shown
  | joined index type =>
    "sequence item " ++ Text.ofNat index ++ ": expected str instance, " ++ type ++ " found"
  | fewArguments called missing => lacking called "positional" missing
  | fewNamed called missing => lacking called "keyword-only" missing
  | unexpected called argument =>
    called ++ "() got an unexpected keyword argument '" ++ argument ++ "'"
  | manyArguments called least most given =>
    let range : Text := if least = most then Text.ofNat most
      else "from " ++ Text.ofNat least ++ " to " ++ Text.ofNat most
    called ++ "() takes " ++ range ++ " positional arguments but " ++ Text.ofNat given ++
      " were given"
  | twice called argument =>
    called ++ "() got multiple values for argument '" ++ argument ++ "'"
  | named called argument =>
    called ++ "() got multiple values for keyword argument '" ++ argument ++ "'"
  | notCallable type => "'" ++ type ++ "' object is not callable"
  | notComparable type => "'>=' not supported between instances of '" ++ type ++ "' and 'int'"
  | brokenCount => "slice indices must be integers or None or have an __index__ method"
  | notRow index =>
    "cannot convert dictionary update sequence element #" ++ Text.ofNat index ++ " to a sequence"
  | notPair index size =>
    "dictionary update sequence element #" ++ Text.ofNat index ++ " has length " ++
      Text.ofNat size ++ "; 2 is required"

end Misuse

inductive Failure where
  | unknownAction (name : Text)
  | emptyInput
  /-- Safe mode held back a call that nobody watches. -/
  | blocked (provider : Text)
  /-- The user did not agree to a call. -/
  | declined (provider : Text)
  | execution (reason : Text)
  | historyWrite (file reason : Text)
  | duplicateId (id : Text)
  | nameTaken (name id owner : Text)
  | missingKey
  | agentNotRunning
  | agentNotResponding
  | agentRequest (reason : Text)
  | clipboard (reason : Text)
  | badTail
  | homeUnknown
  | unknownCommand (name : Text)
  | os (fault : OsFault)
  | misuse (m : Misuse)
  | unwritable (u : Value.Unwritable)
  /-- A text cannot be written in UTF-8. -/
  | unencodable (o : Utf8.Obstacle)
  /-- The name of a file holds a zero. -/
  | nullByte
  /-- A JSON text holds containers within containers beyond what can be read. -/
  | tooDeep (c : Json.Container)
  /-- A document holds containers within containers beyond what can be written. -/
  | tooDeepToWrite
  /-- A value holds containers within containers beyond what can be logged; how this is said. -/
  | tooDeepToLog (said : Text)
  | unroundable (u : Double.Unroundable)
  | thrown (e : Thrown)

namespace Failure

def kind : Failure → Text
  | unknownAction _ => "ResolutionError"
  | emptyInput => "EmptyInputError"
  | blocked _ | declined _ => "PolicyBlocked"
  | execution _ => "ExecutionError"
  | historyWrite .. => "HistoryWriteError"
  | duplicateId _ | nameTaken .. => "RegistryConstructionError"
  | missingKey => "UnsupportedProviderError"
  | agentNotRunning => "AgentNotRunningError"
  | agentNotResponding => "AgentNotRespondingError"
  | agentRequest _ => "AgentRequestError"
  | clipboard _ | homeUnknown => "RuntimeError"
  | badTail | unknownCommand _ | nullByte => "ValueError"
  | os fault => OsFault.kindOf fault.code
  | misuse m => m.kind
  | unwritable _ => "TypeError"
  | unencodable _ => "UnicodeEncodeError"
  | tooDeep _ | tooDeepToWrite | tooDeepToLog _ => "RecursionError"
  | unroundable .nan => "ValueError"
  | unroundable .infinity => "OverflowError"
  | thrown e => e.kind

def message : Failure → Text
  | unknownAction name => "Unknown action \"" ++ name ++ "\""
  | emptyInput => "Clipboard is empty"
  | blocked provider => "safe mode: blocked cloud call to " ++ provider ++ " (daemon auto-triggered)"
  | declined provider => "safe mode: user declined cloud provider call to " ++ provider
  | execution reason => reason
  | historyWrite file reason => "Could not write history record to " ++ file ++ ": " ++ reason
  | duplicateId id => "Duplicate action id \"" ++ id ++ "\""
  | nameTaken name id owner =>
    "Action name \"" ++ name ++ "\" of \"" ++ id ++ "\" is already used by \"" ++ owner ++ "\""
  | missingKey => "Provider type \"anthropic\" requires an api_key in the agent configuration."
  | agentNotRunning => "Agent not running. Start with: clipboard-ai-agent"
  | agentNotResponding => "Agent not responding. Try restarting."
  | agentRequest reason => reason
  | clipboard reason => "Could not copy to clipboard: " ++ reason
  | badTail => "tail must be a positive integer"
  | homeUnknown => "Could not determine home directory."
  | unknownCommand name => "Unknown command: " ++ name
  | os fault => fault.message
  | misuse m => m.message
  | unwritable u => u.message
  | unencodable o => o.message
  | nullByte => "embedded null byte"
  | tooDeep c =>
    "maximum recursion depth exceeded while decoding a JSON " ++ c.name ++ " from a unicode string"
  | tooDeepToWrite => "maximum recursion depth exceeded while encoding a JSON object"
  | tooDeepToLog said => said
  | unroundable .nan => "cannot convert float NaN to integer"
  | unroundable .infinity => "cannot convert float infinity to integer"
  | thrown e => e.message

/-- Whether the agent could not be asked or did not answer as it should. -/
def isAgent : Failure → Bool
  | agentNotRunning | agentNotResponding | agentRequest _ => true
  | _ => false

/-- Whether a failure says no more than that nothing stands at a path: nothing can stand under a text
that is no name. -/
def meansAbsent : Failure → Bool
  | os fault => fault.meansAbsent
  | nullByte | unencodable _ => true
  | _ => false

/-- The message, or the kind of a failure that has none. -/
def label (f : Failure) : Text := if f.message.isEmpty then f.kind else f.message

end Failure

inductive Interruption where
  | keyboard (message : Text)
  | exit (code : Data) (message : Text)
  | cancelled (message : Text)

namespace Interruption

def kind : Interruption → Text
  | keyboard _ => "KeyboardInterrupt"
  | exit .. => "SystemExit"
  | cancelled _ => "CancelledError"

/-- The kind as a report on an error names it, which tells where a kind that is not common is at
home. -/
def reportedKind : Interruption → Text
  | cancelled _ => "asyncio.exceptions.CancelledError"
  | i => i.kind

def message : Interruption → Text
  | keyboard m | exit _ m | cancelled m => m

end Interruption

/-- Why a computation stops. -/
inductive Halt where
  | failed (f : Failure)
  | interrupted (i : Interruption)

namespace Halt

def kind : Halt → Text
  | failed f => f.kind
  | interrupted i => i.kind

def reportedKind : Halt → Text
  | failed f => f.kind
  | interrupted i => i.reportedKind

def message : Halt → Text
  | failed f => f.message
  | interrupted i => i.message

end Halt
end ClipActions
