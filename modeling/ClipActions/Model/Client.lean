import ClipActions.Model.Backend
import ClipActions.Model.Http

/-!
The client that actions ask: one prompt, one answer, and a log event before and after. A failed call
is logged and passed on as it is.
-/
namespace ClipActions.Model

/-- A client bound to a provider. -/
structure Client where
  provider : Provider
  endpoint : Text
  backend : Backend

namespace Client

def maxTokens : Int := 1024

/-- The number nearest to 0.7. -/
def temperature : Double := .nearest false 7 10

variable [Runtime]

def make (p : Provider) : Job Client := do
  return { provider := p, endpoint := p.resolveEndpoint, backend := ← Model.backend p }

def logRequest (c : Client) (promptSize : Nat) (system : Json) : Job Unit :=
  Job.log {
    name := "ai_request"
    fields := [
      ("provider", .str c.provider.type), ("model", .str c.provider.model),
      ("endpoint", .str c.endpoint), ("input_chars", .int promptSize),
      ("has_system_prompt", .bool system.truthy)] }

def logError (c : Client) (start : Double) (f : Failure) : Job Unit := do
  let latency ← Job.sinceTenth start
  let http := match f with
    | .thrown e => httpFields e
    | _ => []
  let known : List (Text × Data) := [
    ("provider", .str c.provider.type), ("model", .str c.provider.model),
    ("latency_ms", .float latency), ("error_type", .str f.kind), ("error", .str f.message)]
  Job.log { name := "ai_error", level := Log.Level.error, fields := known ++ http }

def logResponse (c : Client) (start : Double) (response : Json) : Job Unit := do
  let usage ← Job.check (response.get "usage" (.obj []))
  let model ← Job.check (response.get "model" (.str c.provider.model))
  let latency ← Job.sinceTenth start
  let size ← Job.check ((response.get "content" (.str [])).bind Json.size)
  let input ← Job.check (usage.get "prompt_tokens")
  let output ← Job.check (usage.get "completion_tokens")
  Job.log {
    name := "ai_response"
    fields := [
      ("provider", .str c.provider.type), ("model", .ofJson model), ("latency_ms", .float latency),
      ("output_chars", .int size), ("input_tokens", .ofJson input),
      ("output_tokens", .ofJson output)] }

def generate (c : Client) (prompt system : Json) : Job Json := do
  c.logRequest (← Job.check prompt.size) system
  let start ← Job.readTimer
  let request : Request :=
    { model := .str c.provider.model, prompt, system, maxTokens := .int maxTokens
      temperature := .float temperature }
  let response ← Job.handle (c.backend.complete request) fun f => do
    c.logError start f
    Job.fail f
  c.logResponse start response
  return response

/-- The content of the answer to an operation on a text. -/
def apply (c : Client) (operation : Operation) (text language : Json) : Job Json := do
  let language ← Job.check language.replacement
  let text ← Job.check text.replacement
  let template := operation.template
  let response ← c.generate (.str (template.render text language)) (.str template.system)
  Job.check (response.get "content" (.str []))

def reply (c : Client) : Ask → Job Json
  | .generate prompt system => c.generate prompt system
  | .apply operation text language => c.apply operation text language

def answer (c : Client) (call : Call) : Job Json := do c.reply (← Job.check call.resolve)

end Client

variable [Runtime]

/-- A program run with a client that answers its calls. -/
def runProgram {α : Type} (c : Client) : Program α → Job α
  | .done a => pure a
  | .stop h => throw h
  | .ask call next => do runProgram c (next (← Job.settle (c.answer call)))

end ClipActions.Model
