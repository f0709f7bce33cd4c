import ClipActions.Context
import ClipActions.Host
import ClipActions.Json.Bytes

/-!
Requests to the agent. Each makes at most one exchange over the socket and ends with the document of
a good reply, or with a failure that says what is wrong with the agent.
-/
namespace ClipActions.Agent

def binary : Text := Context.application ++ "-agent"

/-- The address under which the agent is asked over its socket. -/
def baseUrl : Text := "http://agent"

/-- Seconds that a request may take. -/
def timeout : Double := .ofNat 10

/-- The numbers of the system for "no such file" and "connection refused". -/
def noSuchFile : Data := .int 2

def connectionRefused : Data := .int 111

/-- What a failed connection says about the agent. -/
def connectFailure (e : TransportError) : Failure :=
  let means (code : Data) : Bool := e.cause.errno?.any (Value.sameKey code)
  if means noSuchFile || Text.occursIn "No such file" e.message then .agentNotRunning
  else if means connectionRefused || Text.occursIn "Connection refused" e.message then
    .agentNotResponding
  else .agentRequest (if e.message.isEmpty then e.kind else e.message)

variable [Runtime]

def documentIn (body : Bytes) : Except Failure (Option Json) := (Json.readBytes body).mapError .tooDeep

/-- What a reply of another status says: an error or a message in it, or its text. -/
def statusMessage (status : Nat) (body : Bytes) (document : Option Json) : Text :=
  let text := Utf8.decode body
  let shown : Json := match document with
    | some (.obj fields) =>
      let field (name : Text) : Json := (Json.Fields.find? fields name).getD .null
      ((field "error").orElse (field "message")).orElse (.str text)
    | _ => .str text
  "Request failed (" ++ Text.ofNat status ++ "): " ++
    (shown.orElse (.str "Unknown error")).display

def isSuccess (status : Nat) : Bool := 200 ≤ status && status < 300

def logFailure (socket : Path) (method path kind message : Text) : Job Unit :=
  Job.log {
    name := "agent_request_error", level := Log.Level.error
    fields := [
      ("method", .str method), ("path", .str path), ("socket_path", .path socket),
      ("error_type", .str kind), ("error", .str message)] }

/-- One exchange with the agent. A peer that serves takes note of the request. -/
def exchange (socket : Path) (method path : Text) (body : Option Json) : Job Exchange := do
  let host ← get
  if host.agent.serves then Job.emit (.requested method path body)
  let (answer?, agent) := host.agent.answer path
  modify fun host => { host with agent }
  return answer?.getD (.failed (host.refusal socket))

def socketThere (socket : Path) : Job Bool := do
  match (← get).agent with
  | .absent => Job.somethingAt socket
  | _ => return true

def request (socket : Path) (method path : Text) (body : Option Json := none) : Job Json := do
  if !(← socketThere socket) then Job.fail .agentNotRunning
  if let some e := body.bind Runtime.bodyFault? then Job.fail (.thrown e)
  match ← exchange socket method path body with
  | .failed e =>
    if e.connect then
      let f := connectFailure e
      logFailure socket method path f.kind f.message
      Job.fail f
    else
      logFailure socket method path e.kind e.message
      Job.fail (.agentRequest (if e.message.isEmpty then e.kind else e.message))
  | .reply status body =>
    let document ← Job.take (documentIn body)
    if isSuccess status then
      match document with
      | some j => return j
      | none => Job.fail (.agentRequest ("Invalid JSON response: " ++ Utf8.decode body))
    else
      let f := Failure.agentRequest (statusMessage status body document)
      logFailure socket method path f.kind f.message
      Job.fail f

def status (ctx : Context) : Job Json := request ctx.socket "GET" "/status"

def clipboard (ctx : Context) : Job Json := request ctx.socket "GET" "/clipboard"

def config (ctx : Context) : Job Json := request ctx.socket "GET" "/config"

def runAction (ctx : Context) (action : Json) (text : Json) : Job Json :=
  let named : Json.Fields := [("action", action)]
  let body := if text.truthy then named.put "text" text else named
  request ctx.socket "POST" "/action" (some (.obj body))

/-- The text to work on: the one of the environment, even an empty one, or the clipboard's. -/
def inputText (ctx : Context) : Job Json := do
  match ctx.input with
  | some t => return .str t
  | none =>
    let reply ← clipboard ctx
    return (← Job.check (reply.get "text")).orElse (.str [])

def copy (content : Json) : Job Unit := do
  let host ← get
  match host.clipboardFault, host.copyHalt? content with
  | some reason, _ => Job.fail (.clipboard reason)
  | none, some h => throw h
  | none, none => Job.emit (.copied content)

end ClipActions.Agent
