import ClipActions.Context
import ClipActions.Host

/-! The end of the agent's own log files. -/
namespace ClipActions

/-- The log files of the agent: what it prints, and what it complains of. -/
inductive AgentLog where
  | output
  | errors
  deriving DecidableEq, Repr

namespace AgentLog

def fileName : AgentLog → Text
  | output => "agent.log"
  | errors => "agent.err"

def path (log : AgentLog) (ctx : Context) : Path := ctx.logDir.child log.fileName

def count? : Data → Option Nat
  | .int (.ofNat (n + 1)) => some (n + 1)
  | _ => none

/-- The lines of a text that are not blank, without the white space at their ends. -/
def contentLines (text : Text) : List Text := (text.lines.map Text.trimEnd).filter (!·.isEmpty)

def lastLines (count : Nat) (text : Text) : List Text :=
  let all := contentLines text
  all.drop (all.length - count)

def tail (log : AgentLog) (count : Data) (ctx : Context) : Job (List Text) :=
  match count? count with
  | none => Job.fail .badTail
  | some n => lastLines n <$> Job.readText (log.path ctx)

end AgentLog
end ClipActions
