import ClipActions.Thrown

/-!
What lies beneath the program and is no part of it: the interpreter that runs it, the standard output
that it writes to, and the library that sends its requests.
-/
namespace ClipActions

/-- Where brackets may stand in the authority of a URL. The interpreter's URL parser has had one rule
after the other. -/
inductive BracketRule where
  /-- An address stands between the first opening bracket and the first closing one behind it. This is
  the rule of the releases 3.11.4 to 3.11.11. -/
  | pair
  /-- The host is an address between brackets; nothing stands before them, and only a number after.
  This is the rule from 3.11.12 on. -/
  | host
  deriving DecidableEq, Repr

/-- What lies beneath the program. The depths are those that the stack of the interpreter bears wherever
in the program a text is read, a document is written or an event is logged. -/
class Runtime where
  /-- So many containers may stand within each other in a JSON text that is read or written; either
  takes one level of the stack for each of them. -/
  jsonDepth : Nat
  /-- So many may in a value that is reduced for the log, which takes more of the stack. -/
  logDepth : Nat
  /-- What is said of a stack that is full. -/
  overflow : Text
  brackets : BracketRule
  /-- Why the standard output refuses a text. -/
  outputFault? : Text → Option Thrown
  /-- Why a document cannot be the body of a request. -/
  bodyFault? : Json → Option Thrown
  logDepth_pos : 0 < logDepth
  logDepth_lt : logDepth < jsonDepth

namespace Runtime

/-- A stack of a thousand levels, some of which the callers take, where a reduction takes two levels for
each container; an output that takes every text; and bodies that are strict JSON in UTF-8. -/
instance usual : Runtime where
  jsonDepth := 960
  logDepth := 480
  overflow := "maximum recursion depth exceeded"
  brackets := .host
  outputFault? _ := none
  bodyFault? body :=
    if body.isFinite then Thrown.unencodable? body.write
    else some { kind := "ValueError", message := "Out of range float values are not JSON compliant" }
  logDepth_pos := by decide
  logDepth_lt := by decide

/-- The same with a standard output in UTF-8, as it is outside of a test. -/
@[reducible] def strict : Runtime := { usual with outputFault? := Thrown.unencodable? }

theorem jsonDepth_pos [Runtime] : 0 < jsonDepth := Nat.lt_trans logDepth_pos logDepth_lt

end Runtime
end ClipActions
