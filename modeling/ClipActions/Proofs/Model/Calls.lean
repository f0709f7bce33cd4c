import ClipActions.Proofs.Job.Hereditary
import ClipActions.Proofs.Log.Delivery

/-!
What opening a client and asking it are made of: a call to open the service, the calls that create
answers, and log events.
-/
namespace ClipActions.Model

open Job (Hereditary)

variable {P : Effect → Prop} {S : ∀ {α : Type}, Job α → Prop} {c : Client} {b : Backend}
  {p : Provider} {h k : Host}

/-- The events of a client and of its backend may be told of. -/
structure Told (P : Effect → Prop) : Prop where
  service : ∀ x : Effect, x.Logs "provider_log" → P x
  request : ∀ x : Effect, x.Notes "ai_request" → P x
  error : ∀ x : Effect, x.Logs "ai_error" → P x
  response : ∀ x : Effect, x.Notes "ai_response" → P x

theorem told_any : Told fun _ => True :=
  ⟨fun _ _ => trivial, fun _ _ => trivial, fun _ _ => trivial, fun _ _ => trivial⟩

/-! Opening a backend. -/

def chatOpening (url : Option Text) (key timeout : Json) : Json.Fields :=
  [("base_url", optional url), ("api_key", key), ("timeout", timeout), ("max_retries", .int 0)]

section

variable [Runtime]

theorem chat_inherits (f : Hereditary P S) {url : Option Text} {key timeout : Json}
    (hp : P (.called "openai.init" (chatOpening url key timeout))) : S (chat url key timeout) :=
  f.bind (f.openService hp) fun _ => f.pure _

theorem backend_inherits (f : Hereditary P S)
    (hp : ∀ operation arguments, P (.called operation arguments)) (p : Provider) :
    S (backend p) := by
  unfold backend
  split
  · split
    · exact f.fail _
    · exact f.bind (f.openService (hp _ _)) fun _ => f.pure _
  · exact chat_inherits f (hp _ _)

theorem make_inherits (f : Hereditary P S) (hb : S (backend p)) : S (Client.make p) :=
  f.bind hb fun _ => f.pure _

end

theorem host_openService (operation : Text) (arguments : Json.Fields) (h : Host) :
    ((openService operation arguments).result h).2 =
      { h with trace := h.trace ++ [.called operation arguments] } := by
  unfold openService
  rw [Job.result_bind_ok (Job.result_emit _ h), Job.result_bind_ok (Job.result_get _)]
  split <;> rfl

section

variable [Runtime]

/-- Opening a service for chat completions is one call. -/
theorem host_chat (url : Option Text) (key timeout : Json) (h : Host) :
    ((chat url key timeout).result h).2 =
      { h with trace := h.trace ++ [.called "openai.init" (chatOpening url key timeout)] } := by
  have ho := host_openService "openai.init" (chatOpening url key timeout) h
  unfold chat
  rw [chatOpening] at ho
  rw [Job.result_bind]
  split
  · rename_i heq
    rw [heq] at ho
    exact ho
  · rename_i heq
    rw [heq] at ho
    exact ho

theorem chat_opens {url : Option Text} {key timeout : Json}
    (ho : h.openHalt? "openai.init" (chatOpening url key timeout) = none) :
    ∃ b k, (chat url key timeout).result h = (.ok b, k) ∧ b.kind = chatKind ∧ b.baseUrl = url := by
  have hopen : (openService "openai.init" (chatOpening url key timeout)).result h =
      (.ok (), { h with
        trace := h.trace ++ [.called "openai.init" (chatOpening url key timeout)] }) := by
    unfold openService
    rw [Job.result_bind_ok (Job.result_emit _ h), Job.result_bind_ok (Job.result_get _)]
    dsimp only
    rw [ho]
    rfl
  unfold chat
  rw [chatOpening] at hopen
  rw [Job.result_bind_ok hopen]
  exact ⟨_, _, rfl, rfl, rfl⟩

theorem host_make (p : Provider) (h : Host) :
    ((Client.make p).result h).2 = ((backend p).result h).2 := by
  unfold Client.make
  rw [Job.result_bind]
  rcases (backend p).result h with ⟨e | b, k⟩ <;> rfl

/-- What a client is that has been made. -/
theorem make_backend (hc : (Client.make p).result h = (.ok c, k)) :
    c.provider = p ∧ (backend p).result h = (.ok c.backend, k) := by
  obtain ⟨b, m, hb, hc⟩ := Job.bind_ok hc
  cases hc
  exact ⟨rfl, hb⟩

/-- What a backend is that has been opened for chat completions. -/
theorem chat_complete {url : Option Text} {key timeout : Json}
    (hb : (chat url key timeout).result h = (.ok b, k)) :
    b.kind = chatKind ∧ b.baseUrl = url ∧
      ∀ (P : Effect → Prop) (S : ∀ {α : Type}, Job α → Prop), Hereditary P S → Told P →
        (∀ arguments, P (.called "openai.create" arguments)) → ∀ r, S (b.complete r) := by
  obtain ⟨_, m, -, hb⟩ := Job.bind_ok hb
  cases hb
  exact ⟨rfl, rfl, fun P S f t hp r =>
    f.bind (f.callService t.service (hp _) url) fun _ => f.pure _⟩

theorem messages_complete {key timeout : Json} {endpoint : Option Text}
    (hb : (messages key endpoint timeout).result h = (.ok b, k)) (f : Hereditary P S) (t : Told P)
    (hp : ∀ arguments, P (.called "anthropic.create" arguments)) : ∀ r, S (b.complete r) := by
  obtain ⟨_, m, -, hb⟩ := Job.bind_ok hb
  cases hb
  exact fun r => f.bind (f.callService t.service (hp _) _) fun _ =>
    f.bind (f.check _) fun _ => f.pure _

theorem backend_complete (hb : (backend p).result h = (.ok b, k)) (f : Hereditary P S)
    (t : Told P) (hp : ∀ operation arguments, P (.called operation arguments)) :
    ∀ r, S (b.complete r) := by
  unfold backend at hb
  split at hb
  · split at hb
    · cases hb
    · exact messages_complete hb f t (hp _)
  · exact (chat_complete hb).2.2 P S f t (hp _)

end

theorem openService_error {operation : Text} {arguments : Json.Fields} {e : Halt}
    (ho : (openService operation arguments).result h = (.error e, k)) :
    h.openHalt? operation arguments = some e := by
  unfold openService at ho
  rw [Job.result_bind_ok (Job.result_emit _ h), Job.result_bind_ok (Job.result_get _)] at ho
  dsimp only at ho
  split at ho
  · rename_i heq
    cases ho
    exact heq
  · cases ho

section

variable [Runtime]

/-- A backend is not opened if its key is missing or the host stops it. -/
theorem backend_error {e : Halt} (hb : (backend p).result h = (.error e, k)) :
    e = .failed .missingKey ∨
      ∃ operation arguments, h.openHalt? operation arguments = some e := by
  have hopen : ∀ {operation arguments} {g : Unit → Backend},
      (openService operation arguments >>= fun u => pure (g u)).result h = (.error e, k) →
        ∃ operation arguments, h.openHalt? operation arguments = some e := by
    intro operation arguments g ho
    rcases Job.bind_error ho with ho | ⟨_, m, -, hpure⟩
    · exact ⟨_, _, openService_error ho⟩
    · cases hpure
  unfold backend at hb
  split at hb
  · split at hb
    · cases hb
      exact .inl rfl
    · exact .inr (hopen hb)
  · exact .inr (hopen hb)

end

/-! Asking a client. -/

theorem plain_httpFields (e : Thrown) : ∀ x ∈ httpFields e, x.1 ≠ "ts" ∧ x.1 ≠ "event" := by
  intro x hx
  simp only [httpFields, List.mem_append, List.mem_ite_nil_left, List.mem_ite_nil_right,
    List.mem_singleton] at hx
  rcases hx with (⟨-, rfl⟩ | ⟨-, rfl⟩) | ⟨-, rfl⟩ <;> dsimp only <;> decide

section

variable [Runtime]

theorem logError_inherits (f : Hereditary P S) (t : Told P) (c : Client) (start : Double)
    (failure : Failure) : S (c.logError start failure) := by
  refine f.bind (f.sinceTenth start) fun latency => f.log ⟨?_, ?_⟩ t.error
  · exact (by decide : Text.OfMarks "ai_error")
  · intro x hx
    rcases List.mem_append.1 hx with hx | hx
    · exact Log.Event.fields_of_names rfl x hx
    · split at hx
      · exact plain_httpFields _ x hx
      · simp at hx

theorem logResponse_inherits (f : Hereditary P S) (t : Told P) (c : Client) (start : Double)
    (response : Json) : S (c.logResponse start response) := by
  refine f.bind (f.check _) fun usage => f.bind (f.check _) fun model =>
    f.bind (f.sinceTenth start) fun latency => f.bind (f.check _) fun size =>
    f.bind (f.check _) fun input => f.bind (f.check _) fun output =>
    f.tell (.of_names rfl) (Log.Event.silent_of_names rfl) t.response

/-- A program of one call ends as the call does. -/
theorem result_askOnce {α : Type} (c : Client) (call : Call) (f : Json → α) (h : Host) :
    (runProgram c (.askOnce call f)).result h =
      match (c.answer call).result h with
      | (.ok a, k) => (.ok (f a), k)
      | (.error e, k) => (.error e, k) := by
  unfold Program.askOnce runProgram
  rw [Job.result_bind_ok (Job.result_settle _ h)]
  rcases (c.answer call).result h with ⟨e | a, k⟩ <;> rfl

end

variable (hc : ∀ r, S (c.backend.complete r))

include hc

variable [Runtime]

theorem generate_inherits (f : Hereditary P S) (t : Told P) (prompt system : Json) :
    S (c.generate prompt system) := by
  have hrequest : ∀ size, S (c.logRequest size system) := fun size =>
    f.tell (.of_names rfl) (Log.Event.silent_of_names rfl) t.request
  refine f.bind (f.check _) fun size => f.bind (hrequest size) fun _ =>
    f.bind f.readTimer fun start => f.bind ?_ fun response =>
      f.bind (logResponse_inherits f t c start response) fun _ => f.pure _
  exact f.handle (hc _) fun failure =>
    f.bind (logError_inherits f t c start failure) fun _ => f.fail _

theorem answer_inherits (f : Hereditary P S) (t : Told P) (call : Call) : S (c.answer call) := by
  refine f.bind (f.check _) fun ask => ?_
  cases ask with
  | generate prompt system => exact generate_inherits hc f t prompt system
  | apply operation text language =>
    exact f.bind (f.check _) fun _ => f.bind (f.check _) fun _ =>
      f.bind (generate_inherits hc f t _ _) fun _ => f.check _

/-- However a program goes on after each answer, it is made of calls. -/
theorem runProgram_inherits {α : Type} (f : Hereditary P S) (t : Told P) (program : Program α) :
    S (runProgram c program) := by
  induction program with
  | done a => exact f.pure a
  | stop e => exact f.throw e
  | ask call next ih =>
    exact f.bind (f.settle (answer_inherits hc f t call)) fun answer => ih answer

end ClipActions.Model
