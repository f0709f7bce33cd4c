import ClipActions.Proofs.Agent.Chain
import ClipActions.Proofs.Agent.Requests
import ClipActions.Proofs.Disk.Faults
import ClipActions.Proofs.Text.Leads

/-!
What a request to the agent comes to. Each way through a request is one case: what stands at the
socket, what the agent answers, and what that says. From the cases follows when a request has a result
and which failure says what; a document that is nested too deeply is the one thing in a reply that is
not told as a failure of the agent.
-/
namespace ClipActions.Agent

variable {socket : Path} {path : Text} {body : Option Json} {h : Host}

/-! Failures of the transport. -/

/-- The first number on the chain of an error, or some words in its message, say what has failed. -/
def TransportError.Means (e : TransportError) (code : Data) (words : Text) : Prop :=
  (∃ n, e.cause.First 0 n ∧ Value.sameKey code n = true) ∨ words <:+: e.message

theorem TransportError.means_iff (e : TransportError) (code : Data) (words : Text) :
    (e.cause.errno?.any (Value.sameKey code) || Text.occursIn words e.message) = true ↔
      e.Means code words := by
  have hnumber : e.cause.errno?.any (Value.sameKey code) = true ↔
      ∃ n, e.cause.First 0 n ∧ Value.sameKey code n = true := by
    simp only [Option.any_eq_true, Cause.errno?_eq_some]
  rw [Bool.or_eq_true, hnumber, Text.occursIn_iff]
  rfl

/-- A connection fails because there is no socket. -/
def TransportError.Absent (e : TransportError) : Prop :=
  e.connect = true ∧ e.Means noSuchFile "No such file"

/-- A connection fails because nobody listens. -/
def TransportError.Refused (e : TransportError) : Prop :=
  e.connect = true ∧ e.Means connectionRefused "Connection refused"

def TransportError.label (e : TransportError) : Text := if e.message.isEmpty then e.kind else e.message

/-- What a failed exchange is told as. -/
def failedAs (e : TransportError) : Failure :=
  if e.connect then connectFailure e else .agentRequest e.label

theorem failedAs_cases (e : TransportError) :
    (e.Absent ∧ failedAs e = .agentNotRunning) ∨
    (¬ e.Absent ∧ e.Refused ∧ failedAs e = .agentNotResponding) ∨
    (¬ e.Absent ∧ ¬ e.Refused ∧ failedAs e = .agentRequest e.label) := by
  unfold failedAs TransportError.Absent TransportError.Refused
  by_cases hc : e.connect = true
  · have habsent := e.means_iff noSuchFile "No such file"
    have hrefused := e.means_iff connectionRefused "Connection refused"
    simp only [hc, if_true, true_and]
    unfold connectFailure
    dsimp only
    by_cases ha : e.Means noSuchFile "No such file"
    · exact .inl ⟨ha, if_pos (habsent.2 ha)⟩
    · rw [if_neg (mt habsent.1 ha)]
      by_cases hr : e.Means connectionRefused "Connection refused"
      · exact .inr (.inl ⟨ha, hr, if_pos (hrefused.2 hr)⟩)
      · exact .inr (.inr ⟨ha, hr, if_neg (mt hrefused.1 hr)⟩)
  · refine .inr (.inr ⟨fun h => hc h.1, fun h => hc h.1, ?_⟩)
    rw [if_neg hc]

section

variable [Runtime]

/-! The ways through a request. -/

/-- A failure that is told leaves one event, and nothing stops the telling. -/
theorem result_told (socket : Path) (method path kind message : Text) (f : Failure) (h : Host) :
    ∃ k x, (do logFailure socket method path kind message; Job.fail f : Job Json).result h =
      (.error (.failed f), k) ∧ k.trace = h.trace ++ [x] ∧ x.Logs "agent_request_error" := by
  have hlogged : ∃ disk target x, (logFailure socket method path kind message).result h =
      (.ok (), { h with disk, target, trace := h.trace ++ [x] }) ∧ x.Logs "agent_request_error" :=
    Job.result_log_plain (.of_nestings rfl) (.of_names rfl) h
  obtain ⟨disk, target, x, hlog, hx⟩ := hlogged
  exact ⟨_, x, Job.result_bind_ok hlog _, rfl, hx⟩

/-- A request finds a socket, can be sent and meets an answer. -/
structure Meets (socket : Path) (path : Text) (body : Option Json) (h : Host) (x : Exchange) :
    Prop where
  there : there socket h = .ok true
  sendable : body.bind Runtime.bodyFault? = none
  answered : answered socket path h = x

/-- The ways through a request: what each comes to, whether anything is sent, and whether a failure is
logged. -/
inductive Course (socket : Path) (path : Text) (body : Option Json) (h : Host) :
    Except Halt Json → Bool → Bool → Prop where
  | unreachable {f : Failure} (hs : there socket h = .error f) :
      Course socket path body h (.error (.failed f)) false false
  | absent (hs : there socket h = .ok false) :
      Course socket path body h (.error (.failed .agentNotRunning)) false false
  | unsendable {e : Thrown} (hs : there socket h = .ok true)
      (hb : body.bind Runtime.bodyFault? = some e) :
      Course socket path body h (.error (.failed (.thrown e))) false false
  | failed {e : TransportError} (hm : Meets socket path body h (.failed e)) :
      Course socket path body h (.error (.failed (failedAs e))) true true
  | tooDeep {status : Nat} {bytes : Bytes} {c : Json.Container}
      (hm : Meets socket path body h (.reply status bytes)) (hd : Json.readBytes bytes = .error c) :
      Course socket path body h (.error (.failed (.tooDeep c))) true false
  | value {status : Nat} {bytes : Bytes} {j : Json}
      (hm : Meets socket path body h (.reply status bytes)) (hs : isSuccess status = true)
      (hd : Json.readBytes bytes = .ok (some j)) : Course socket path body h (.ok j) true false
  | invalid {status : Nat} {bytes : Bytes}
      (hm : Meets socket path body h (.reply status bytes)) (hs : isSuccess status = true)
      (hd : Json.readBytes bytes = .ok none) :
      Course socket path body h
        (.error (.failed (.agentRequest ("Invalid JSON response: " ++ Utf8.decode bytes)))) true false
  | refused {status : Nat} {bytes : Bytes} {document : Option Json}
      (hm : Meets socket path body h (.reply status bytes)) (hs : isSuccess status = false)
      (hd : Json.readBytes bytes = .ok document) :
      Course socket path body h
        (.error (.failed (.agentRequest (statusMessage status bytes document)))) true true

-- Two ways differ in what stands at the socket, in the body, in the answer or in what it holds.
/-- There is one way for each host. -/
theorem Course.unique {r r' : Except Halt Json} {asks logs asks' logs' : Bool}
    (hc : Course socket path body h r asks logs) (hc' : Course socket path body h r' asks' logs') :
    r = r' ∧ asks = asks' ∧ logs = logs' := by
  cases hc <;> cases hc' <;> grind [Meets]

theorem Course.asks_of_meets {r : Except Halt Json} {asks logs : Bool} {x : Exchange}
    (hc : Course socket path body h r asks logs) (hm : Meets socket path body h x) :
    asks = true := by
  cases hc <;> grind [Meets]

/-- What has been told of a failed request: one event or none. -/
def Tells (logs : Bool) (events : List Effect) : Prop :=
  if logs then ∃ x : Effect, events = [x] ∧ x.Logs "agent_request_error" else events = []

theorem request_course (socket : Path) (method path : Text) (body : Option Json) (h : Host) :
    ∃ asks logs events,
      Course socket path body h ((request socket method path body).result h).1 asks logs ∧
      Tells logs events ∧ ((request socket method path body).result h).2.trace =
        h.trace ++ (if asks then sent method path body h else []) ++ events := by
  have hstart := result_socketThere socket h
  have hnone : h.trace = h.trace ++ [] ++ [] := by simp
  unfold request
  cases hs : there socket h with
  | error f =>
    rw [hs] at hstart
    rw [Job.result_bind_error hstart]
    exact ⟨false, false, [], .unreachable hs, rfl, hnone⟩
  | ok found =>
    rw [hs] at hstart
    rw [Job.result_bind_ok hstart]
    cases found with
    | false => exact ⟨false, false, [], .absent hs, rfl, hnone⟩
    | true =>
      cases hb : body.bind Runtime.bodyFault? with
      | some e => exact ⟨false, false, [], .unsendable hs hb, rfl, hnone⟩
      | none =>
        have hm {x : Exchange} (hx : answered socket path h = x) : Meets socket path body h x :=
          ⟨hs, hb, hx⟩
        have hasked : (asked method path body h).trace =
            h.trace ++ sent method path body h ++ [] := (List.append_nil _).symm
        simp only [Bool.not_true, Bool.false_eq_true, if_false]
        rw [Job.result_bind_ok (result_exchange socket method path body h)]
        cases hx : answered socket path h with
        | failed e =>
          have hcourse : Course socket path body h (.error (.failed (failedAs e))) true true :=
            .failed (hm hx)
          dsimp only
          split
          · rename_i hc
            obtain ⟨k, x, hk, htrace, hlogs⟩ := result_told socket method path
              (connectFailure e).kind (connectFailure e).message (connectFailure e)
              (asked method path body h)
            rw [failedAs, if_pos hc] at hcourse
            rw [hk]
            exact ⟨true, true, [x], hcourse, ⟨x, rfl, hlogs⟩, htrace⟩
          · rename_i hc
            obtain ⟨k, x, hk, htrace, hlogs⟩ := result_told socket method path e.kind e.message
              (.agentRequest e.label) (asked method path body h)
            rw [failedAs, if_neg hc] at hcourse
            rw [TransportError.label] at hk
            rw [hk]
            exact ⟨true, true, [x], hcourse, ⟨x, rfl, hlogs⟩, htrace⟩
        | reply status bytes =>
          dsimp only
          cases hd : Json.readBytes bytes with
          | error c =>
            rw [documentIn, hd]
            exact ⟨true, false, [], .tooDeep (hm hx) hd, rfl, hasked⟩
          | ok document =>
            have htake (k : Host) : (Job.take (documentIn bytes)).result k = (.ok document, k) := by
              rw [documentIn, hd]
              rfl
            rw [Job.result_bind_ok (htake _)]
            split
            · rename_i hsuccess
              cases document with
              | some j => exact ⟨true, false, [], .value (hm hx) hsuccess hd, rfl, hasked⟩
              | none => exact ⟨true, false, [], .invalid (hm hx) hsuccess hd, rfl, hasked⟩
            · rename_i hsuccess
              rw [Bool.not_eq_true] at hsuccess
              obtain ⟨k, x, hk, htrace, hlogs⟩ := result_told socket method path
                (Failure.agentRequest (statusMessage status bytes document)).kind
                (Failure.agentRequest (statusMessage status bytes document)).message
                (.agentRequest (statusMessage status bytes document)) (asked method path body h)
              rw [hk]
              exact ⟨true, true, [x], .refused (hm hx) hsuccess hd, ⟨x, rfl, hlogs⟩, htrace⟩

end

/-! What follows from the ways. -/

theorem isAgent_of_there {f : Failure} (hs : there socket h = .error f) : f.isAgent = false := by
  unfold there at hs
  split at hs
  · have hfault : Disk.Faulty (Option.isSome <$> h.disk.find? socket) :=
      (Disk.find?_faulty _ _).bind fun _ => .ok _
    have := hfault f hs
    cases f <;> first | rfl | cases this
  · cases hs
  · cases hs

section

variable [Runtime]

/-- What a request passes on that is no failure of the agent: a fault at the path of the socket, a
document that cannot be sent, or a reply that is nested too deeply. -/
inductive Passes (socket : Path) (path : Text) (body : Option Json) (h : Host) : Failure → Prop where
  | socket {f : Failure} (hs : there socket h = .error f) : Passes socket path body h f
  | body {e : Thrown} (hs : there socket h = .ok true)
      (hb : body.bind Runtime.bodyFault? = some e) : Passes socket path body h (.thrown e)
  | reply {status : Nat} {bytes : Bytes} {c : Json.Container}
      (hm : Meets socket path body h (.reply status bytes)) (hd : Json.readBytes bytes = .error c) :
      Passes socket path body h (.tooDeep c)

/-- Why a request has failed where there is an agent that listens. -/
inductive Reason (socket : Path) (path : Text) (body : Option Json) (h : Host) : Text → Prop where
  | transport {e : TransportError} (hm : Meets socket path body h (.failed e)) (ha : ¬ e.Absent)
      (hr : ¬ e.Refused) : Reason socket path body h e.label
  | invalid {status : Nat} {bytes : Bytes} (hm : Meets socket path body h (.reply status bytes))
      (hs : isSuccess status = true) (hd : Json.readBytes bytes = .ok none) :
      Reason socket path body h ("Invalid JSON response: " ++ Utf8.decode bytes)
  | status {status : Nat} {bytes : Bytes} {document : Option Json}
      (hm : Meets socket path body h (.reply status bytes)) (hs : isSuccess status = false)
      (hd : Json.readBytes bytes = .ok document) :
      Reason socket path body h (statusMessage status bytes document)

theorem Passes.not_isAgent {f : Failure} (hp : Passes socket path body h f) : f.isAgent = false := by
  cases hp with
  | socket hs => exact isAgent_of_there hs
  | body hs hb => rfl
  | reply hm hd => rfl

/-- A reason is never empty, if an error of the transport has a kind. -/
theorem Reason.ne_nil {reason : Text} (hr : Reason socket path body h reason)
    (hkind : ∀ e, answered socket path h = .failed e → e.kind ≠ []) : reason ≠ [] := by
  cases hr with
  | @transport e hm ha hr =>
    unfold TransportError.label
    split
    · exact hkind e hm.answered
    · rename_i hmessage
      exact fun hnil => hmessage (List.isEmpty_iff.2 hnil)
  | invalid => exact nofun
  | status => exact nofun

/-- Why a request fails as it does. -/
inductive Why (socket : Path) (path : Text) (body : Option Json) (h : Host) : Failure → Prop where
  | absent (hs : there socket h = .ok false) : Why socket path body h .agentNotRunning
  | gone {e : TransportError} (hm : Meets socket path body h (.failed e)) (ha : e.Absent) :
      Why socket path body h .agentNotRunning
  | refused {e : TransportError} (hm : Meets socket path body h (.failed e)) (ha : ¬ e.Absent)
      (hr : e.Refused) : Why socket path body h .agentNotResponding
  | reason {reason : Text} (hr : Reason socket path body h reason) :
      Why socket path body h (.agentRequest reason)
  | passes {f : Failure} (hp : Passes socket path body h f) : Why socket path body h f

theorem Why.course {f : Failure} (hw : Why socket path body h f) :
    ∃ asks logs, Course socket path body h (.error (.failed f)) asks logs := by
  have hfailed {e : TransportError} (hm : Meets socket path body h (.failed e)) :
      Course socket path body h (.error (.failed (failedAs e))) true true := .failed hm
  cases hw with
  | absent hs => exact ⟨_, _, .absent hs⟩
  | @gone e hm ha =>
    obtain ⟨-, hf⟩ | ⟨hn, -⟩ | ⟨hn, -⟩ := failedAs_cases e
    · exact ⟨_, _, hf ▸ hfailed hm⟩
    · exact absurd ha hn
    · exact absurd ha hn
  | @refused e hm ha hr =>
    obtain ⟨h, -⟩ | ⟨-, -, hf⟩ | ⟨-, hn, -⟩ := failedAs_cases e
    · exact absurd h ha
    · exact ⟨_, _, hf ▸ hfailed hm⟩
    · exact absurd hr hn
  | reason hr =>
    cases hr with
    | @transport e hm ha hr =>
      obtain ⟨h, -⟩ | ⟨-, h, -⟩ | ⟨-, -, hf⟩ := failedAs_cases e
      · exact absurd h ha
      · exact absurd h hr
      · exact ⟨_, _, hf ▸ hfailed hm⟩
    | invalid hm hs hd => exact ⟨_, _, .invalid hm hs hd⟩
    | status hm hs hd => exact ⟨_, _, .refused hm hs hd⟩
  | passes hp =>
    cases hp with
    | socket hs => exact ⟨_, _, .unreachable hs⟩
    | body hs hb => exact ⟨_, _, .unsendable hs hb⟩
    | reply hm hd => exact ⟨_, _, .tooDeep hm hd⟩

/-- Every way ends with the document of a reply or with a failure that has its reason. -/
theorem Course.ends {r : Except Halt Json} {asks logs : Bool}
    (hc : Course socket path body h r asks logs) :
    (∃ j status bytes, r = .ok j ∧ Meets socket path body h (.reply status bytes) ∧
      isSuccess status = true ∧ Json.readBytes bytes = .ok (some j)) ∨
    ∃ f, r = .error (.failed f) ∧ Why socket path body h f := by
  cases hc with
  | unreachable hs => exact .inr ⟨_, rfl, .passes (.socket hs)⟩
  | absent hs => exact .inr ⟨_, rfl, .absent hs⟩
  | unsendable hs hb => exact .inr ⟨_, rfl, .passes (.body hs hb)⟩
  | @failed e hm =>
    refine .inr ⟨_, rfl, ?_⟩
    obtain ⟨ha, hf⟩ | ⟨ha, hr, hf⟩ | ⟨ha, hr, hf⟩ := failedAs_cases e
    · exact hf ▸ .gone hm ha
    · exact hf ▸ .refused hm ha hr
    · exact hf ▸ .reason (.transport hm ha hr)
  | tooDeep hm hd => exact .inr ⟨_, rfl, .passes (.reply hm hd)⟩
  | value hm hs hd => exact .inl ⟨_, _, _, rfl, hm, hs, hd⟩
  | invalid hm hs hd => exact .inr ⟨_, rfl, .reason (.invalid hm hs hd)⟩
  | refused hm hs hd => exact .inr ⟨_, rfl, .reason (.status hm hs hd)⟩

/-- A way ends with a failure just if there is the reason for it. -/
theorem Course.error_iff {r : Except Halt Json} {asks logs : Bool}
    (hc : Course socket path body h r asks logs) {f : Failure} :
    r = .error (.failed f) ↔ Why socket path body h f := by
  constructor
  · rintro rfl
    obtain ⟨j, _, _, hj, -⟩ | ⟨g, hg, hw⟩ := hc.ends
    · cases hj
    · cases hg
      exact hw
  · intro hw
    obtain ⟨asks, logs, hc'⟩ := hw.course
    exact (hc.unique hc').1

/-- What a request comes to is determined by what it meets. -/
structure Determined (socket : Path) (path : Text) (body : Option Json) (h : Host)
    (r : Except Halt Json) : Prop where
  value : ∀ j, r = .ok j ↔ ∃ status bytes, Meets socket path body h (.reply status bytes) ∧
    isSuccess status = true ∧ Json.readBytes bytes = .ok (some j)
  notRunning : r = .error (.failed .agentNotRunning) ↔
    there socket h = .ok false ∨ ∃ e, Meets socket path body h (.failed e) ∧ e.Absent
  notResponding : r = .error (.failed .agentNotResponding) ↔
    ∃ e, Meets socket path body h (.failed e) ∧ ¬ e.Absent ∧ e.Refused
  request : ∀ reason, r = .error (.failed (.agentRequest reason)) ↔
    Reason socket path body h reason
  passes : ∀ f, f.isAgent = false → (r = .error (.failed f) ↔ Passes socket path body h f)
  fails : ∀ e, r = .error e → ∃ f, e = .failed f ∧
    (f.isAgent = true ∧ f.message ≠ [] ∨ Passes socket path body h f)

theorem Course.determined {r : Except Halt Json} {asks logs : Bool}
    (hc : Course socket path body h r asks logs)
    (hkind : ∀ e, answered socket path h = .failed e → e.kind ≠ []) :
    Determined socket path body h r where
  value j := by
    constructor
    · rintro rfl
      obtain ⟨_, status, bytes, hj, hvalue⟩ | ⟨_, hf, -⟩ := hc.ends
      · cases hj
        exact ⟨status, bytes, hvalue⟩
      · cases hf
    · rintro ⟨status, bytes, hm, hs, hd⟩
      exact (hc.unique (.value hm hs hd)).1
  notRunning := by
    rw [hc.error_iff]
    constructor
    · intro hw
      cases hw with
      | absent hs => exact .inl hs
      | gone hm ha => exact .inr ⟨_, hm, ha⟩
      | passes hp => cases hp.not_isAgent
    · rintro (hs | ⟨e, hm, ha⟩)
      · exact .absent hs
      · exact .gone hm ha
  notResponding := by
    rw [hc.error_iff]
    constructor
    · intro hw
      cases hw with
      | refused hm ha hr => exact ⟨_, hm, ha, hr⟩
      | passes hp => cases hp.not_isAgent
    · rintro ⟨e, hm, ha, hr⟩
      exact .refused hm ha hr
  request reason := by
    rw [hc.error_iff]
    constructor
    · intro hw
      cases hw with
      | reason hr => exact hr
      | passes hp => cases hp.not_isAgent
    · exact .reason
  passes f hf := by
    rw [hc.error_iff]
    constructor
    · intro hw
      cases hw with
      | passes hp => exact hp
      | absent _ => cases hf
      | gone _ _ => cases hf
      | refused _ _ _ => cases hf
      | reason _ => cases hf
    · exact .passes
  fails e he := by
    obtain ⟨_, _, _, hj, -⟩ | ⟨f, hf, hw⟩ := hc.ends
    · rw [he] at hj
      cases hj
    · rw [he] at hf
      cases hf
      refine ⟨f, rfl, ?_⟩
      cases hw with
      | absent hs => exact .inl ⟨rfl, nofun⟩
      | gone hm ha => exact .inl ⟨rfl, nofun⟩
      | refused hm ha hr => exact .inl ⟨rfl, nofun⟩
      | reason hr => exact .inl ⟨rfl, hr.ne_nil hkind⟩
      | passes hp => exact .inr hp

/-- What a request has sent and told: at most one request, none where there is no socket, and at most
one event, that it has failed. -/
structure Trail (socket : Path) (method path : Text) (body : Option Json) (h : Host)
    (requests events : List Effect) : Prop where
  sends : requests = [] ∨ requests = [.requested method path body]
  reaches : ∀ x, Meets socket path body h x → h.agent.serves = true →
    requests = [.requested method path body]
  absent : there socket h = .ok false → requests = [] ∧ events = []
  logs : events = [] ∨ ∃ x : Effect, events = [x] ∧ x.Logs "agent_request_error"

theorem Course.trail {r : Except Halt Json} {asks logs : Bool} {events : List Effect}
    (hc : Course socket path body h r asks logs) (ht : Tells logs events) (method : Text) :
    Trail socket method path body h (if asks then sent method path body h else []) events where
  sends := by
    unfold sent
    cases asks <;> cases h.agent.serves <;> simp
  reaches x hm hserves := by
    rw [hc.asks_of_meets hm, if_pos rfl, sent, if_pos hserves]
  absent hs := by
    obtain ⟨-, rfl, rfl⟩ := hc.unique (.absent hs)
    exact ⟨rfl, ht⟩
  logs := by
    cases logs with
    | false => exact .inl ht
    | true => exact .inr ht

/-- Whatever a request meets, it comes to the document of a good reply or to a failure of the agent
that is told apart by what it has met. What passes beside that is a fault at the path of the socket, a
body that cannot be sent and a reply that is nested too deeply, and nothing else. -/
theorem request_outcomes (socket : Path) (method path : Text) (body : Option Json) (h : Host)
    (hkind : ∀ e, answered socket path h = .failed e → e.kind ≠ []) :
    Determined socket path body h ((request socket method path body).result h).1 ∧
    ∃ requests events, Trail socket method path body h requests events ∧
      ((request socket method path body).result h).2.trace = h.trace ++ requests ++ events := by
  obtain ⟨asks, logs, events, hc, htells, htrace⟩ := request_course socket method path body h
  exact ⟨hc.determined hkind, _, events, hc.trail htells method, htrace⟩

end

def answering (x : Exchange) : Host where
  now := ⟨0⟩
  agent := .serving [("/status", [x])]
  target := .nowhere

/-- An error of a connection whose cause has the number of a missing file and the error itself for its
own cause. -/
def circling : TransportError where
  connect := true
  kind := "ConnectError"
  message := "All connection attempts failed"
  cause := ⟨[{ cause? := some 1 }, { errno? := some noSuchFile, cause? := some 0 }]⟩

/-- The number of a missing file is found on a chain that runs in a circle. -/
theorem request_outcomes_circling : ((request "agent.sock" "GET" "/status").result
    (answering (.failed circling))).1 = .error (.failed .agentNotRunning) := by
  have hkind : ∀ e, answered "agent.sock" "/status" (answering (.failed circling)) = .failed e →
      e.kind ≠ [] := by
    intro e he
    cases he
    exact nofun
  have hmeets : Meets "agent.sock" "/status" none (answering (.failed circling)) (.failed circling) :=
    ⟨rfl, rfl, rfl⟩
  have habsent : circling.Absent := by
    refine ⟨rfl, .inl ⟨noSuchFile, ⟨1, ?_⟩, rfl⟩⟩
    exact .next rfl rfl rfl (.here rfl rfl)
  obtain ⟨hdetermined, -⟩ := request_outcomes "agent.sock" "GET" "/status" none
    (answering (.failed circling)) hkind
  exact hdetermined.notRunning.2 (.inr ⟨circling, hmeets, habsent⟩)

/-- A good reply that holds more brackets than may be nested. -/
def bracketed : Exchange := .reply 200 (List.replicate 3000 91)

/-- A reply that holds no JSON document is told as none of the failures of the agent where it is nested
too deeply. -/
theorem request_passes_deep : ∃ f, f.isAgent = false ∧
    ((request "agent.sock" "GET" "/status").result (answering bracketed)).1 =
      .error (.failed f) := by
  have hdeep : (Json.readBytes (List.replicate 3000 91)).toOption = none := by
    decide +kernel
  obtain ⟨c, hc⟩ : ∃ c, Json.readBytes (List.replicate 3000 91) = .error c := by
    cases hr : Json.readBytes (List.replicate 3000 91) with
    | error c => exact ⟨c, rfl⟩
    | ok document =>
      rw [hr] at hdeep
      cases hdeep
  obtain ⟨_, _, _, hcourse, -, -⟩ := request_course "agent.sock" "GET" "/status" none
    (answering bracketed)
  have hmeets : Meets "agent.sock" "/status" none (answering bracketed) bracketed := ⟨rfl, rfl, rfl⟩
  exact ⟨.tooDeep c, rfl, hcourse.error_iff.2 (.passes (.reply hmeets hc))⟩

end ClipActions.Agent
