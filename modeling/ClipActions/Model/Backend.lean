import ClipActions.Host
import ClipActions.Provider

/-!
Backends: the ways to complete a prompt. Two kinds of service have one each; a service call is made
once and never repeated.
-/
namespace ClipActions.Model

/-- A prompt to complete. The service judges what it is asked, so a request holds any documents. -/
structure Request where
  model : Json
  prompt : Json
  system : Json
  maxTokens : Json
  temperature : Json

namespace Request

/-- The names under which the parts of a request are given. -/
def signature : Signature := ⟨["model", "prompt", "max_tokens", "temperature"], ["system_prompt"]⟩

/-- The request that is given part by part; null stands for a part that need not be given. -/
def ofParts (called : Text) (parts : Json.Fields) : Checked Request :=
  let part (name : Text) : Json := (parts.find? name).getD .null
  match signature.faultByName? called (parts.map (·.1)) with
  | some m => .error m
  | none => .ok {
    model := part "model", prompt := part "prompt", system := part "system_prompt"
    maxTokens := part "max_tokens", temperature := part "temperature" }

end Request

/-- Seconds that a call may take if nothing is said. -/
def usualTimeout : Double := .ofNat 120

structure Backend where
  kind : Text
  baseUrl : Option Text
  /-- Seconds that a call may take. -/
  timeout : Json
  complete : Request → Job Json

/-- The completion of a request that is given part by part. -/
def Backend.completeParts (b : Backend) (parts : Json.Fields) : Job Json := do
  b.complete (← Job.check (Request.ofParts (b.kind ++ ".complete") parts))

variable [Runtime]

def logServiceError (service : Text) (message : Text) : Job Unit :=
  Job.log {
    name := "provider_log", level := Log.Level.error
    fields := [("provider", .str service), ("message", .str message)] }

/-- What is logged of an error of a service; nothing if it comes from elsewhere. -/
def serviceMessage? (e : Thrown) (target : Option Text) : Option Text :=
  e.service.map fun
    | .authentication => "Authentication failed: " ++ e.message
    | .badRequest => "Bad request: " ++ e.message
    | .connection =>
      let place : Text := (target.filter (!·.isEmpty)).getD "provider endpoint"
      "Could not reach " ++ place ++ ": " ++ e.kind ++ ": " ++ e.message
    | .rateLimit | .status =>
      "API error (" ++ (e.member "status_code").display ++ "): " ++ e.message

/-- One call to a service; an error of the service is logged and passed on. -/
def callService (service : Text) (target : Option Text) (arguments : Json.Fields) :
    Job Service.Reply := do
  Job.emit (.called (service ++ ".create") arguments)
  let host ← get
  let (answer, left) := match host.service with
    | [] => (host.silence, [])
    | answer :: left => (answer, left)
  set { host with service := left }
  match answer with
  | .ok reply => return reply
  | .error h =>
    if let .failed (.thrown e) := h then
      if let some message := serviceMessage? e target then logServiceError service message
    throw h

def answer (content model requested : Json) (usage : Option Json.Fields) : Json :=
  let known : Json.Fields := [("content", content), ("model", model.orElse requested)]
  match usage with
  | none => .obj known
  | some fields => .obj (known.put "usage" (.obj fields))

def usageFields (reply : Service.Reply) (prompt completion : Text) : Option Json.Fields :=
  reply.usage.map fun usage => [
    ("prompt_tokens", (usage.find? prompt).getD .null),
    ("completion_tokens", (usage.find? completion).getD .null)]

def message (role : Text) (content : Json) : Json :=
  .obj [("role", .str role), ("content", content)]

def chatArguments (r : Request) : Json.Fields := [
  ("model", r.model),
  ("messages", .arr ((if r.system.truthy then [message "system" r.system] else []) ++
    [message "user" r.prompt])),
  ("temperature", r.temperature),
  ("max_tokens", r.maxTokens)]

def messageArguments (r : Request) : Json.Fields :=
  let common : Json.Fields := [
    ("model", r.model), ("max_tokens", r.maxTokens), ("temperature", r.temperature),
    ("messages", .arr [message "user" r.prompt])]
  if r.system.truthy then common.put "system" r.system else common

/-- The content of the first choice; empty if there is none. -/
def choiceContent (reply : Service.Reply) : Json :=
  match reply.choices with
  | [] => .str []
  | content :: _ => content.orElse (.str [])

/-- The texts of the blocks of type `text`, one after another. -/
def blocksContent (reply : Service.Reply) : Checked Json :=
  Json.str <$> Json.join [] ((reply.blocks.filter fun b => b.type.sameLeaf (.str "text")).map (·.text))

/-- A text that may be absent, as a document. -/
def optional (t : Option Text) : Json := t.elim .null .str

/-- The text of a document; null has none. -/
def text? : Json → Option Text
  | .null => none
  | j => some j.display

/-- A service is opened under an operation, which may be stopped. -/
def openService (operation : Text) (arguments : Json.Fields) : Job Unit := do
  Job.emit (.called operation arguments)
  match (← get).openHalt? operation arguments with
  | some h => throw h
  | none => return ()

def chatKind : Text := "OpenAICompatibleProvider"

def chat (baseUrl : Option Text) (key : Json) (timeout : Json := .float usualTimeout) :
    Job Backend := do
  openService "openai.init" [("base_url", optional baseUrl), ("api_key", key),
    ("timeout", timeout), ("max_retries", .int 0)]
  return {
    kind := chatKind
    baseUrl
    timeout
    complete := fun r => do
      let reply ← callService "openai" baseUrl (chatArguments r)
      return answer (choiceContent reply) reply.model r.model
        (usageFields reply "prompt_tokens" "completion_tokens") }

/-- An endpoint without slashes at its end and without the `/v1` that the service adds. -/
def trimEndpoint (endpoint : Option Text) : Option Text :=
  match endpoint with
  | none => none
  | some e =>
    if e.isEmpty then none
    else
      let trimmed := e.dropTail (· = .char '/')
      some (if Text.endsWith "/v1" trimmed then trimmed.take (trimmed.length - 3) else trimmed)

def messageKind : Text := "AnthropicProvider"

def messages (key : Json) (endpoint : Option Text) (timeout : Json := .float usualTimeout) :
    Job Backend := do
  let baseUrl := trimEndpoint endpoint
  let common : Json.Fields := [
    ("api_key", key), ("timeout", timeout), ("max_retries", .int 0)]
  openService "anthropic.init" (match baseUrl.filter (!·.isEmpty) with
    | none => common
    | some url => common.put "base_url" (.str url))
  return {
    kind := messageKind
    baseUrl
    timeout
    complete := fun r => do
      let reply ← callService "anthropic" baseUrl (messageArguments r)
      let content ← Job.check (blocksContent reply)
      return answer content reply.model r.model
        (usageFields reply "input_tokens" "output_tokens") }

/-- What opens a backend of a kind, if arguments in order fit. -/
def opening (s : Signature) (kind : Text) (arguments : List Json) (backend : Job Backend) :
    Job Backend :=
  match s.faultInOrder? (kind ++ ".__init__") arguments.length with
  | some m => Job.fail (.misuse m)
  | none => backend

def chatOf (arguments : List Json) : Job Backend :=
  opening ⟨["base_url", "api_key"], ["timeout"]⟩ chatKind arguments <|
    chat (text? (arguments.getD 0 .null)) (arguments.getD 1 .null)
      (arguments.getD 2 (.float usualTimeout))

def messagesOf (arguments : List Json) : Job Backend :=
  opening ⟨["api_key"], ["endpoint", "timeout"]⟩ messageKind arguments <|
    messages (arguments.getD 0 .null) (text? (arguments.getD 1 .null))
      (arguments.getD 2 (.float usualTimeout))

/-- The key for local services, which look at none. -/
def placeholderKey : Text := "dummy-key-for-local"

def backend (p : Provider) : Job Backend :=
  if p.type = "anthropic" then
    match p.key.filter (!·.isEmpty) with
    | none => Job.fail .missingKey
    | some key => messages (.str key) p.endpoint
  else chat (some p.resolveEndpoint) (.str ((p.key.filter (!·.isEmpty)).getD placeholderKey))

end ClipActions.Model
