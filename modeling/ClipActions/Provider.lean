import ClipActions.Json.Access
import ClipActions.Url.Authority

/-! How to reach a model, and whether a text sent there leaves this machine. -/
namespace ClipActions

/-- How to reach a model. -/
structure Provider where
  type : Text
  model : Text
  endpoint : Option Text := none
  key : Option Text := none
  deriving DecidableEq, Repr, Inhabited

namespace Provider

/-- A text that is not empty. -/
def present? : Data → Option Text
  | .str t => if t.isEmpty then none else some t
  | _ => none

def textOf (v : Data) : Text := if v.truthy then v.display else []

/-- The provider of a block of settings; empty texts count as absent. -/
def ofBlock (block : Data) : Checked Provider := do
  return {
    type := textOf (← block.get "type")
    model := textOf (← block.get "model")
    endpoint := present? (← block.get "endpoint")
    key := present? (← block.get "api_key") }

def ofConfig (config : Data) : Checked Provider := do ofBlock (← config.get "provider").orEmpty

/-- The provider as it may be shown: its key is masked. -/
def shown (p : Provider) : Text :=
  let quoted? (t : Option Text) : Text := (t.map Text.quoted).getD "None"
  "ProviderConfig(type=" ++ p.type.quoted ++ ", model=" ++ p.model.quoted ++
    ", endpoint=" ++ quoted? p.endpoint ++
    ", api_key=" ++ quoted? (if p.key.all (·.isEmpty) then none else some "***") ++ ")"

/-- The types whose service is not on this machine. -/
def cloudTypes : List Text := ["openai", "anthropic"]

/-- The types whose service is always on this machine. -/
def localTypes : List Text := ["ollama"]

/-- The hosts that are this machine. -/
def loopbackHosts : List Text := ["localhost", "127.0.0.1", "::1"]

variable [Runtime]

/--
Whether a text sent to a provider may leave this machine. A type that is not known stays here only
if the endpoint is a URL whose host is this machine.
-/
def isCloud (type : Text) (endpoint : Option Text) : Bool :=
  if type ∈ cloudTypes then true
  else if type ∈ localTypes then false
  else !((endpoint.bind Url.host?).any fun host => loopbackHosts.contains host)

/-- The endpoint of a local service that none is configured for. -/
def localEndpoint : Text := "http://localhost:11434/v1"

/-- The endpoints of the types that have one by default. -/
def defaultEndpoints : List (Text × Text) := [
  ("ollama", localEndpoint), ("openai", "https://api.openai.com/v1"),
  ("anthropic", "https://api.anthropic.com/v1")]

/-- The configured endpoint, or the one of the type. -/
def resolveEndpoint (p : Provider) : Text :=
  match p.endpoint with
  | some e => if e.isEmpty then (defaultEndpoints.lookup p.type).getD localEndpoint else e
  | none => (defaultEndpoints.lookup p.type).getD localEndpoint

end Provider
end ClipActions
