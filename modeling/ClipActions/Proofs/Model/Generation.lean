import ClipActions.Proofs.Model.Calls

/-!
What one generation comes to: one event, one call to the service, an event of the backend if the
service itself failed, and one event about the end. Nothing on the way hides what the service gave.
-/
namespace ClipActions

namespace Service

def Block.text? (b : Block) : Option Text :=
  match b.type, b.text with
  | .str type, .str t => if type = "text" then some t else none
  | _, _ => none

variable [Runtime]

/-- A reply as the services make it: contents are texts or null, the blocks of type `text` hold
texts, and nothing is nested too deeply for the log. -/
structure Reply.Proper (r : Reply) : Prop where
  choices : ∀ content ∈ r.choices, content = .null ∨ ∃ t, content = .str t
  blocks : ∀ b ∈ r.blocks, b.type = .str "text" → ∃ t, b.text = .str t
  model : r.model.nesting ≤ Runtime.logDepth
  usage : ∀ u, r.usage = some u → ∀ f ∈ u, f.2.nesting ≤ Runtime.logDepth

/-- An answer that is a proper reply or an error; what an error tells of its exchange is not nested
too deeply for the log. -/
def Ordinary : Answer → Prop
  | .ok reply => reply.Proper
  | .error (.failed (.thrown e)) =>
    ∀ f ∈ Model.httpFields e, f.2.nesting ≤ Runtime.logDepth
  | .error (.failed _) => True
  | .error (.interrupted _) => False

end Service

def Host.answer (h : Host) : Service.Answer := h.service.headD h.silence

/-- An event that is logged to a target. -/
def Log.Event.told (e : Log.Event) (target : Log.Target) (now : Instant) : Effect :=
  .logged target e.level (e.record now)

namespace Model

open Service (Answer Block Reply Ordinary)

variable {c : Client} {b : Backend} {p : Provider} {h k m n : Host} {reply : Reply} {r : Request}

/-! What is expected of a generation, by the provider. -/

def service (p : Provider) : Text := if p.type = "anthropic" then "anthropic" else "openai"

/-- The one request that a prompt becomes. -/
def requested (p : Provider) (prompt : Text) (system : Option Text) : Request where
  model := .str p.model
  prompt := .str prompt
  system := optional system
  maxTokens := .int Client.maxTokens
  temperature := .float Client.temperature

def arguments (p : Provider) (r : Request) : Json.Fields :=
  if p.type = "anthropic" then messageArguments r else chatArguments r

/-- The texts of the text blocks in order, or the text of the first choice if there is one. -/
def content (p : Provider) (reply : Reply) : Text :=
  if p.type = "anthropic" then (reply.blocks.filterMap Block.text?).flatten
  else match reply.choices with
    | .str t :: _ => t
    | _ => []

def modelOf (p : Provider) (reply : Reply) : Json :=
  if reply.model.truthy then reply.model else .str p.model

def promptTokens (p : Provider) (usage : Service.Usage) : Json :=
  (usage.find? (if p.type = "anthropic" then "input_tokens" else "prompt_tokens")).getD .null

def completionTokens (p : Provider) (usage : Service.Usage) : Json :=
  (usage.find? (if p.type = "anthropic" then "output_tokens" else "completion_tokens")).getD .null

def response (p : Provider) (reply : Reply) : Json :=
  match reply.usage with
  | none => .obj [("content", .str (content p reply)), ("model", modelOf p reply)]
  | some usage => .obj [
    ("content", .str (content p reply)), ("model", modelOf p reply),
    ("usage", .obj [
      ("prompt_tokens", promptTokens p usage),
      ("completion_tokens", completionTokens p usage)])]

/-- What a generation ends with: the response, or the very error. -/
def verdict (p : Provider) : Answer → Except Halt Json
  | .ok reply => .ok (response p reply)
  | .error e => .error e

def requestEvent (p : Provider) (prompt : Text) (system : Option Text) : Log.Event where
  name := "ai_request"
  fields := [
    ("provider", .str p.type), ("model", .str p.model), ("endpoint", .str p.resolveEndpoint),
    ("input_chars", .int prompt.length), ("has_system_prompt", .bool (system.any (!·.isEmpty)))]

/-- What the backend tells of an error: one event if the service itself failed, otherwise nothing. -/
def backendEvents (p : Provider) (target : Option Text) : Answer → List Log.Event
  | .error (.failed (.thrown e)) =>
    match e.service with
    | none => []
    | some _ => [{
        name := "provider_log", level := Log.Level.error
        fields := [("provider", .str (service p)),
          ("message", .str ((serviceMessage? e target).getD []))] }]
  | _ => []

def responseEvent (p : Provider) (latency : Double) (reply : Reply) : Log.Event where
  name := "ai_response"
  fields := [
    ("provider", .str p.type), ("model", .ofJson (modelOf p reply)),
    ("latency_ms", .float latency), ("output_chars", .int (content p reply).length),
    ("input_tokens", .ofJson ((reply.usage.map (promptTokens p)).getD .null)),
    ("output_tokens", .ofJson ((reply.usage.map (completionTokens p)).getD .null))]

/-- What a failure tells of the exchange that it comes from. -/
def exchangeFields : Halt → List (Text × Data)
  | .failed (.thrown e) => httpFields e
  | _ => []

def errorEvent (p : Provider) (latency : Double) (e : Halt) : Log.Event :=
  let known : List (Text × Data) := [
    ("provider", .str p.type), ("model", .str p.model), ("latency_ms", .float latency),
    ("error_type", .str e.kind), ("error", .str e.message)]
  { name := "ai_error", level := Log.Level.error, fields := known ++ exchangeFields e }

/-- What a generation tells of its end. -/
def lastEvent (p : Provider) (latency : Double) : Answer → Log.Event
  | .ok reply => responseEvent p latency reply
  | .error e => errorEvent p latency e

section

variable [Runtime]

/-! The call to the service. -/

/-- The call is made first, and then its answer is looked at. -/
private theorem callService_eq (service : Text) (target : Option Text) (arguments : Json.Fields)
    (h : Host) : (callService service target arguments).result h =
      (match h.answer with
        | .ok reply => pure reply
        | .error e => do
          if let .failed (.thrown e) := e then
            if let some message := serviceMessage? e target then logServiceError service message
          throw e : Job Reply).result { h with
            trace := h.trace ++ [.called (service ++ ".create") arguments]
            service := h.service.tail } := by
  unfold callService Host.answer
  rw [Job.result_bind_ok (Job.result_emit _ h), Job.result_bind_ok (Job.result_get _)]
  cases h.service with
  | nil =>
    simp only
    rw [Job.result_bind_ok (Job.result_set _ _)]
    rfl
  | cons answer left =>
    simp only
    rw [Job.result_bind_ok (Job.result_set _ _)]
    rfl

theorem callService_ok (hs : h.answer = .ok reply) (service : Text) (target : Option Text)
    (arguments : Json.Fields) : (callService service target arguments).result h =
      (.ok reply, { h with
        trace := h.trace ++ [.called (service ++ ".create") arguments]
        service := h.service.tail }) := by
  rw [callService_eq, hs]
  rfl

/-- An error of the service is told before it is passed on, and every error is passed on as it is. -/
theorem callService_error {e : Halt} (hs : h.answer = .error e) (p : Provider)
    (target : Option Text) (arguments : Json.Fields) : ∃ disk place,
      (callService (service p) target arguments).result h = (.error e, { h with
        trace := h.trace ++ .called (service p ++ ".create") arguments ::
          (backendEvents p target h.answer).map (·.told h.target h.now)
        service := h.service.tail
        disk, target := place }) := by
  rw [callService_eq, hs]
  cases e with
  | interrupted i => exact ⟨h.disk, h.target, rfl⟩
  | failed f =>
    cases f with
    | thrown e =>
      cases hk : e.service with
      | none =>
        have hm : serviceMessage? e target = none := by rw [serviceMessage?, hk]; rfl
        simp only [hm, backendEvents, hk]
        exact ⟨h.disk, h.target, rfl⟩
      | some kind =>
        obtain ⟨message, hm⟩ : ∃ message, serviceMessage? e target = some message :=
          ⟨_, by rw [serviceMessage?, hk]; rfl⟩
        simp only [hm, backendEvents, hk]
        unfold logServiceError
        obtain ⟨disk, place, hlog⟩ := Job.result_log_ok (e := {
          name := "provider_log", level := Log.Level.error
          fields := [("provider", .str (service p)), ("message", .str message)] })
          (.of_nestings rfl) { h with
            trace := h.trace ++ [.called (service p ++ ".create") arguments]
            service := h.service.tail }
        refine ⟨disk, place, (Job.result_bind_ok hlog _).trans ?_⟩
        simp [Log.Event.told]
        rfl
    | _ => exact ⟨h.disk, h.target, rfl⟩

end

/-! What a backend makes of a reply. -/

theorem joinWith_nil (ts : List Text) : Text.joinWith [] ts = ts.flatten := by
  rw [Text.joinWith, List.intercalate]
  induction ts with
  | nil => rfl
  | cons t rest ih => cases rest <;> simp_all

theorem mapM_texts {f : Json × Nat → Checked Text} (hf : ∀ t i, f (.str t, i) = .ok t)
    (ts : List Text) (n : Nat) : ((ts.map Json.str).zipIdx n).mapM f = .ok ts := by
  induction ts generalizing n with
  | nil => rfl
  | cons t ts ih =>
    rw [List.map_cons, List.zipIdx_cons, List.mapM_cons, ih, hf]
    rfl

theorem join_texts (ts : List Text) : Json.join [] (ts.map .str) = .ok ts.flatten :=
  Except.bind_eq_ok.2
    ⟨ts, mapM_texts (fun _ _ => rfl) ts 0, congrArg Except.ok (joinWith_nil ts)⟩

theorem sameLeaf_str (j : Json) (t : Text) : j.sameLeaf (.str t) = true ↔ j = .str t := by
  cases j <;> simp [Json.sameLeaf, Json.whole?]

/-- Blocks of other types are left out, whatever they hold. -/
theorem texts_blocks {blocks : List Block}
    (hb : ∀ b ∈ blocks, b.type = .str "text" → ∃ t, b.text = .str t) :
    (blocks.filter fun b => b.type.sameLeaf (.str "text")).map (·.text) =
      (blocks.filterMap Block.text?).map .str := by
  induction blocks with
  | nil => rfl
  | cons b bs ih =>
    have hrest := ih fun b' hb' => hb b' (List.mem_cons_of_mem _ hb')
    by_cases htype : b.type = .str "text"
    · obtain ⟨t, ht⟩ := hb b List.mem_cons_self htype
      have hsame : b.type.sameLeaf (.str "text") = true := (sameLeaf_str _ _).2 htype
      have htext : b.text? = some t := by simp [Block.text?, htype, ht]
      rw [List.filter_cons, if_pos hsame, List.map_cons, hrest, List.filterMap_cons_some htext,
        List.map_cons, ht]
    · have hsame : ¬ b.type.sameLeaf (.str "text") = true := mt (sameLeaf_str _ _).1 htype
      have htext : b.text? = none := by
        unfold Block.text?
        split
        · rename_i type t heq _
          refine if_neg fun h => htype ?_
          rw [heq, h]
        · rfl
      rw [List.filter_cons, if_neg hsame, List.filterMap_cons_none htext, hrest]

section

variable [Runtime]

theorem blocksContent_eq (hr : reply.Proper) (hp : p.type = "anthropic") :
    blocksContent reply = .ok (.str (content p reply)) := by
  rw [blocksContent, texts_blocks hr.blocks, join_texts, content, if_pos hp]
  rfl

theorem choiceContent_eq (hr : reply.Proper) (hp : p.type ≠ "anthropic") :
    choiceContent reply = .str (content p reply) := by
  unfold choiceContent content
  rw [if_neg hp]
  cases hc : reply.choices with
  | nil => rfl
  | cons first rest =>
    rcases hr.choices first (hc ▸ List.mem_cons_self) with rfl | ⟨t, rfl⟩
    · rfl
    · cases t <;> rfl

end

theorem answer_eq (p : Provider) (reply : Reply) :
    answer (.str (content p reply)) reply.model (.str p.model)
      (if p.type = "anthropic" then usageFields reply "input_tokens" "output_tokens"
        else usageFields reply "prompt_tokens" "completion_tokens") = response p reply := by
  unfold answer response usageFields modelOf promptTokens completionTokens Json.orElse
  by_cases hp : p.type = "anthropic"
  · simp only [if_pos hp]
    cases reply.usage <;> rfl
  · simp only [if_neg hp]
    cases reply.usage <;> rfl

section

variable [Runtime]

/-- A backend completes a prompt by one call, and a proper reply becomes a response. -/
theorem backend_completes (hb : (backend p).result h = (.ok b, k)) (prompt : Text)
    (system : Option Text) : ∃ finish : Reply → Job Json,
      b.complete (requested p prompt system) =
        callService (service p) b.baseUrl (arguments p (requested p prompt system)) >>= finish ∧
      ∀ reply : Reply, reply.Proper → finish reply = pure (response p reply) := by
  unfold backend at hb
  split at hb
  · rename_i hp
    split at hb
    · cases hb
    · obtain ⟨_, m, -, hb⟩ := Job.bind_ok hb
      cases hb
      rw [service, if_pos hp, arguments, if_pos hp]
      refine ⟨_, rfl, fun reply hr => ?_⟩
      have hresponse := answer_eq p reply
      rw [if_pos hp] at hresponse
      rw [blocksContent_eq hr hp, ← hresponse]
      rfl
  · rename_i hp
    obtain ⟨_, m, -, hb⟩ := Job.bind_ok hb
    cases hb
    rw [service, if_neg hp, arguments, if_neg hp]
    refine ⟨_, rfl, fun reply hr => ?_⟩
    have hresponse := answer_eq p reply
    rw [if_neg hp] at hresponse
    rw [choiceContent_eq hr hp, ← hresponse]
    rfl

/-! The events before and after. -/

theorem result_logRequest (hp : c.provider = p) (he : c.endpoint = p.resolveEndpoint)
    (prompt : Text) (system : Option Text) (h : Host) : ∃ disk target,
      (c.logRequest prompt.length (optional system)).result h = (.ok (), { h with
        trace := h.trace ++ [(requestEvent p prompt system).told h.target h.now]
        disk, target }) := by
  have hsystem : (optional system).truthy = system.any (!·.isEmpty) := by cases system <;> rfl
  have hshallow : (requestEvent p prompt system).Shallow := .of_nestings rfl
  subst hp
  unfold Client.logRequest
  rw [he, hsystem]
  exact Job.result_log_ok hshallow h

theorem shallow_responseEvent (hr : reply.Proper) (p : Provider) (latency : Double) :
    (responseEvent p latency reply).Shallow := by
  have hmodel : (modelOf p reply).nesting ≤ Runtime.logDepth := by
    unfold modelOf
    split
    · exact hr.model
    · exact Nat.zero_le _
  have htokens : ∀ tokens : Service.Usage → Json,
      (∀ u, ∃ name, tokens u = (u.find? name).getD .null) →
        ((reply.usage.map tokens).getD .null).nesting ≤ Runtime.logDepth := by
    intro tokens hname
    cases hu : reply.usage with
    | none => exact Nat.zero_le _
    | some u =>
      obtain ⟨name, hn⟩ := hname u
      rw [Option.map_some, Option.getD_some, hn]
      cases hf : u.find? name with
      | none => exact Nat.zero_le _
      | some v => exact hr.usage _ hu _ (Json.Fields.mem_of_find? hf)
  intro f hf
  simp only [responseEvent, List.mem_cons, List.not_mem_nil, or_false] at hf
  rcases hf with rfl | rfl | rfl | rfl | rfl | rfl
  · exact Nat.zero_le _
  · exact Nat.le_trans (Nat.le_of_eq (Json.nesting_ofJson _)) hmodel
  · exact Nat.zero_le _
  · exact Nat.zero_le _
  · exact Nat.le_trans (Nat.le_of_eq (Json.nesting_ofJson _)) (htokens _ fun u => ⟨_, rfl⟩)
  · exact Nat.le_trans (Nat.le_of_eq (Json.nesting_ofJson _)) (htokens _ fun u => ⟨_, rfl⟩)

end

/-- What the response to a proper reply holds under the names that its event is made from. -/
theorem get_response (p : Provider) (reply : Reply) : ∃ usage,
    (response p reply).get "usage" (.obj []) = .ok usage ∧
    (response p reply).get "model" (.str p.model) = .ok (modelOf p reply) ∧
    ((response p reply).get "content" (.str [])).bind Json.size = .ok (content p reply).length ∧
    usage.get "prompt_tokens" = .ok ((reply.usage.map (promptTokens p)).getD .null) ∧
    usage.get "completion_tokens" = .ok ((reply.usage.map (completionTokens p)).getD .null) := by
  unfold response
  cases reply.usage with
  | none => exact ⟨.obj [], rfl, rfl, rfl, rfl, rfl⟩
  | some usage => exact ⟨_, rfl, rfl, rfl, rfl, rfl⟩

section

variable [Runtime]

theorem result_logResponse (hr : reply.Proper) (hp : c.provider = p) (start : Double) (h : Host) :
    ∃ latency timer disk target, (c.logResponse start (response p reply)).result h =
      (.ok (), { h with
        trace := h.trace ++ [(responseEvent p latency reply).told h.target h.now]
        timer, disk, target }) := by
  obtain ⟨latency, timer, hsince⟩ := Job.result_sinceTenth start h
  obtain ⟨disk, target, hlog⟩ :=
    Job.result_log_ok (shallow_responseEvent hr p latency) { h with timer }
  refine ⟨latency, timer, disk, target, Eq.trans ?_ hlog⟩
  subst hp
  obtain ⟨usage, husage, hmodel, hsize, hinput, houtput⟩ := get_response c.provider reply
  unfold Client.logResponse
  rw [husage, Job.result_bind_ok (Job.result_check_ok _ _), hmodel,
    Job.result_bind_ok (Job.result_check_ok _ _), Job.result_bind_ok hsince, hsize,
    Job.result_bind_ok (Job.result_check_ok _ _), hinput,
    Job.result_bind_ok (Job.result_check_ok _ _), houtput,
    Job.result_bind_ok (Job.result_check_ok _ _)]
  rfl

theorem result_logError {f : Failure} (ho : Ordinary (.error (.failed f))) (hp : c.provider = p)
    (start : Double) (h : Host) : ∃ latency timer disk target,
      (c.logError start f).result h = (.ok (), { h with
        trace := h.trace ++ [(errorEvent p latency (.failed f)).told h.target h.now]
        timer, disk, target }) := by
  have hshallow : ∀ latency, (errorEvent p latency (.failed f)).Shallow := by
    intro latency x hx
    rcases List.mem_append.1 hx with hx | hx
    · exact Log.Event.Shallow.of_nestings (e := ⟨[], Log.Level.error, _⟩) rfl x hx
    · cases f with
      | thrown e => exact ho x hx
      | _ => cases hx
  obtain ⟨latency, timer, hsince⟩ := Job.result_sinceTenth start h
  obtain ⟨disk, target, hlog⟩ := Job.result_log_ok (hshallow latency) { h with timer }
  refine ⟨latency, timer, disk, target, Eq.trans ?_ hlog⟩
  subst hp
  unfold Client.logError errorEvent
  rw [Job.result_bind_ok hsince]
  cases f <;> rfl

theorem make_endpoint (hc : (Client.make p).result m = (.ok c, n)) :
    c.endpoint = p.resolveEndpoint := by
  obtain ⟨b, k, -, hc⟩ := Job.bind_ok hc
  cases hc
  rfl

/-- What follows the event of the request: the completion, and the event of its end. -/
def Client.conclude (c : Client) (start : Double) (completion : Job Json) : Job Json := do
  let response ← Job.handle completion fun f => do
    c.logError start f
    Job.fail f
  c.logResponse start response
  return response

/-- The request is told of before anything else, and that is all that has happened then. -/
theorem result_generate (hc : (Client.make p).result m = (.ok c, n)) (prompt : Text)
    (system : Option Text) (h : Host) : ∃ start k,
      (c.generate (.str prompt) (optional system)).result h =
        (c.conclude start (c.backend.complete (requested p prompt system))).result k ∧
      k.trace = h.trace ++ [(requestEvent p prompt system).told h.target h.now] ∧
      k.answer = h.answer ∧ k.service = h.service ∧ k.now = h.now := by
  have hp : c.provider = p := (make_backend hc).1
  obtain ⟨disk, target, hrequest⟩ := result_logRequest hp (make_endpoint hc) prompt system h
  obtain ⟨start, -, timer, -, hstart⟩ := Job.result_readTimer { h with
    trace := h.trace ++ [(requestEvent p prompt system).told h.target h.now], disk, target }
  have hrest : (c.generate (.str prompt) (optional system)).result h = _ :=
    (Job.result_bind_ok hrequest _).trans (Job.result_bind_ok hstart _)
  rw [hp] at hrest
  exact ⟨start, _, hrest, rfl, rfl, rfl, rfl⟩

theorem conclude_ok (hr : reply.Proper) (hp : c.provider = p) {completion : Job Json}
    (hk : completion.result h = (.ok (response p reply), k)) (start : Double) :
    ∃ latency m, (c.conclude start completion).result h = (.ok (response p reply), m) ∧
      m.trace = k.trace ++ [(responseEvent p latency reply).told k.target k.now] ∧
      m.service = k.service := by
  obtain ⟨latency, timer, disk, target, hlog⟩ := result_logResponse hr hp start k
  have hhandled : (Job.handle completion fun f => do
      c.logError start f
      Job.fail f).result h = (.ok (response p reply), k) := by
    rw [Job.result_handle, hk]
  have hend : (c.conclude start completion).result h = _ :=
    (Job.result_bind_ok hhandled _).trans (Job.result_bind_ok hlog _)
  exact ⟨latency, _, hend, rfl, rfl⟩

/-- The event of an error does not take the place of the error. -/
theorem conclude_error {f : Failure} (ho : Ordinary (.error (.failed f))) (hp : c.provider = p)
    {completion : Job Json} (hk : completion.result h = (.error (.failed f), k)) (start : Double) :
    ∃ latency m, (c.conclude start completion).result h = (.error (.failed f), m) ∧
      m.trace = k.trace ++ [(errorEvent p latency (.failed f)).told k.target k.now] ∧
      m.service = k.service := by
  obtain ⟨latency, timer, disk, target, hlog⟩ := result_logError ho hp start k
  have hhandled : (Job.handle completion fun f => do
      c.logError start f
      Job.fail f).result h = (c.logError start f >>= fun _ => Job.fail f).result k := by
    rw [Job.result_handle, hk]
  rw [Job.result_bind_ok hlog] at hhandled
  exact ⟨latency, _, Job.result_bind_error hhandled _, rfl, rfl⟩

/-- What the log and the service are told by one generation: the event of the request, one call, what
the backend tells of an error, and the event of the end. -/
def Asks (p : Provider) (c : Client) (prompt : Text) (system : Option Text) (h k : Host) : Prop :=
  ∃ place target latency, k.service = h.service.tail ∧ k.trace = h.trace ++
    [(requestEvent p prompt system).told h.target h.now,
      .called (service p ++ ".create") (arguments p (requested p prompt system))] ++
    (backendEvents p c.backend.baseUrl h.answer).map (·.told place h.now) ++
    [(lastEvent p latency h.answer).told target h.now]

theorem generate_asks (hc : (Client.make p).result m = (.ok c, n)) (ho : Ordinary h.answer)
    (prompt : Text) (system : Option Text) : ∃ k,
      (c.generate (.str prompt) (optional system)).result h = (verdict p h.answer, k) ∧
      Asks p c prompt system h k := by
  obtain ⟨hp, hb⟩ := make_backend hc
  obtain ⟨start, q, hopen, htrace, hanswer, hservice, hnow⟩ := result_generate hc prompt system h
  obtain ⟨finish, hcomplete, hfinish⟩ := backend_completes hb prompt system
  unfold Asks
  rw [hopen, hcomplete, ← hanswer]
  cases ha : q.answer with
  | ok reply =>
    have hr : reply.Proper := by rwa [← hanswer, ha] at ho
    have hcall := Job.result_bind_ok (callService_ok ha (service p) c.backend.baseUrl
      (arguments p (requested p prompt system))) finish
    rw [hfinish reply hr, Job.result_pure] at hcall
    obtain ⟨latency, k, hend, hlast, hleft⟩ := conclude_ok hr hp hcall start
    refine ⟨k, hend, h.target, q.target, latency, by rw [hleft, hservice], ?_⟩
    rw [hlast, htrace, hnow]
    simp [backendEvents, lastEvent]
  | error e =>
    cases e with
    | interrupted i =>
      rw [← hanswer, ha] at ho
      cases ho
    | failed f =>
      have hf : Ordinary (.error (.failed f)) := by rwa [← hanswer, ha] at ho
      obtain ⟨disk, target, herror⟩ := callService_error ha p c.backend.baseUrl
        (arguments p (requested p prompt system))
      obtain ⟨latency, k, hend, hlast, hleft⟩ :=
        conclude_error hf hp (Job.result_bind_error herror finish) start
      refine ⟨k, hend, q.target, target, latency, by rw [hleft, hservice], ?_⟩
      rw [hlast, ha, htrace, hnow]
      simp [lastEvent]

/-- A generation is one event, one call to the service that is never repeated, and one event about
the end, which is the response to the reply or the very error that the service gave. -/
theorem generate_once (hc : (Client.make p).result m = (.ok c, n)) (ho : Ordinary h.answer)
    (prompt : Text) (system : Option Text) : ∃ k place target latency,
      (c.generate (.str prompt) (optional system)).result h = (verdict p h.answer, k) ∧
      k.service = h.service.tail ∧
      k.trace = h.trace ++
        [(requestEvent p prompt system).told h.target h.now,
          .called (service p ++ ".create") (arguments p (requested p prompt system))] ++
        (backendEvents p c.backend.baseUrl h.answer).map (·.told place h.now) ++
        [(lastEvent p latency h.answer).told target h.now] := by
  obtain ⟨k, hend, place, target, latency, hservice, htrace⟩ := generate_asks hc ho prompt system
  exact ⟨k, place, target, latency, hend, hservice, htrace⟩

end

/-- A reply that names no model; two of its blocks hold no text. -/
def mixedReply : Reply where
  blocks := [
    { type := .str "text", text := .str "a" }, { }, { type := .str "tool_use", text := .int 1 },
    { type := .str "text", text := .str "b" }]

def lostConnection : Halt := .failed (.thrown {
  kind := "APIConnectionError", message := "gone", service := some .connection })

def answering (a : Answer) : Host := { now := ⟨0⟩, service := [a], target := .nowhere }

/-- Of a mixed reply the texts are joined, and a lost connection is told of twice. -/
theorem generate_once_mixed : ∃ c n,
    (Client.make { type := "anthropic", model := "m", key := some "k" }).result
      (answering (.ok mixedReply)) = (.ok c, n) ∧
    (∃ k, (c.generate (.str "x") .null).result (answering (.ok mixedReply)) =
      (.ok (.obj [("content", .str "ab"), ("model", .str "m")]), k) ∧ k.trace.length = 3) ∧
    ∃ k, (c.generate (.str "x") .null).result (answering (.error lostConnection)) =
      (.error lostConnection, k) ∧ k.trace.length = 4 := by
  have hproper : mixedReply.Proper := by
    refine ⟨nofun, fun b hb htype => ?_, by decide, nofun⟩
    simp only [mixedReply, List.mem_cons, List.not_mem_nil, or_false] at hb
    rcases hb with rfl | rfl | rfl | rfl
    · exact ⟨_, rfl⟩
    · cases htype
    · cases htype
    · exact ⟨_, rfl⟩
  have hshallow : Ordinary (.error lostConnection) := fun f hf => by cases hf
  have hmade : ∃ c n, (Client.make { type := "anthropic", model := "m", key := some "k" }).result
      (answering (.ok mixedReply)) = (.ok c, n) := ⟨_, _, rfl⟩
  obtain ⟨c, n, hc⟩ := hmade
  refine ⟨c, n, hc, ?_, ?_⟩
  · obtain ⟨k, place, target, latency, hend, -, htrace⟩ :=
      generate_once (h := answering (.ok mixedReply)) hc hproper "x" none
    exact ⟨k, hend, by rw [htrace]; rfl⟩
  · obtain ⟨k, place, target, latency, hend, -, htrace⟩ :=
      generate_once (h := answering (.error lostConnection)) hc hshallow "x" none
    exact ⟨k, hend, by rw [htrace]; rfl⟩

end Model
end ClipActions
