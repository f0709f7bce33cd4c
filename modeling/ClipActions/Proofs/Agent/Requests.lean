import ClipActions.Proofs.Job.Hereditary
import ClipActions.Proofs.Log.Delivery

/-!
Requests to the agent. All that a request leaves behind is that it was made and, if it failed, an
event; and it fails but is never interrupted.
-/
namespace ClipActions.Agent

open Host (Frame)

open Job (Keeps Halts Hereditary)

variable {P : Effect → Prop} {R : Host → Host → Prop} {S : ∀ {α : Type}, Job α → Prop}

/-! The parts of a request. -/

/-- Whether something stands where the socket should. Where no peer is known, the disk says. -/
def there (socket : Path) (h : Host) : Except Failure Bool :=
  match h.agent with
  | .absent => Option.isSome <$> h.disk.find? socket
  | .stale | .serving _ => .ok true

def answered (socket : Path) (path : Text) (h : Host) : Exchange :=
  (h.agent.answer path).1.getD (.failed (h.refusal socket))

/-- The request that is sent, if a peer takes note of it. -/
def sent (method path : Text) (body : Option Json) (h : Host) : List Effect :=
  if h.agent.serves then [.requested method path body] else []

theorem result_socketThere (socket : Path) (h : Host) : (socketThere socket).result h =
    ((there socket h).mapError .failed, h) := by
  unfold socketThere there
  rw [Job.result_bind_ok (Job.result_get h)]
  cases h.agent with
  | absent =>
    dsimp only
    unfold Job.somethingAt
    rw [Job.result_bind_ok (Job.result_get h)]
    cases h.disk.find? socket <;> rfl
  | stale => rfl
  | serving routes => rfl

/-- The host behind an exchange. -/
def asked (method path : Text) (body : Option Json) (h : Host) : Host :=
  { h with agent := (h.agent.answer path).2, trace := h.trace ++ sent method path body h }

theorem result_exchange (socket : Path) (method path : Text) (body : Option Json) (h : Host) :
    (exchange socket method path body).result h =
      (.ok (answered socket path h), asked method path body h) := by
  unfold exchange answered asked sent
  rw [Job.result_bind_ok (Job.result_get h)]
  cases h.agent.serves with
  | true =>
    simp only [if_true]
    rw [Job.result_bind_ok (Job.result_emit _ h)]
    rfl
  | false =>
    simp only [Bool.false_eq_true, if_false, List.append_nil]
    rfl

section

variable [Runtime]

/-- Where no socket is found a request fails at once, and nothing is done. -/
theorem request_unreached {socket : Path} {h : Host} (hs : there socket h ≠ .ok true) :
    ∃ f, ∀ method path body k, there socket k = there socket h →
      (request socket method path body).result k = (.error (.failed f), k) := by
  have hthere : ∀ k, (socketThere socket).result k = ((there socket k).mapError .failed, k) :=
    result_socketThere socket
  cases hh : there socket h with
  | error f =>
    refine ⟨f, fun method path body k hk => ?_⟩
    have hfound := hthere k
    rw [hk] at hfound
    exact Job.result_bind_error hfound _
  | ok b =>
    cases b with
    | true => exact absurd hh hs
    | false =>
      refine ⟨.agentNotRunning, fun method path body k hk => ?_⟩
      have hfound := hthere k
      rw [hk] at hfound
      exact Job.result_bind_ok hfound _

end

/-! What a request leaves behind. -/

/-- Requests and their failures may be told of. -/
structure Told (P : Effect → Prop) : Prop where
  request : ∀ method path body, P (.requested method path body)
  failure : ∀ x : Effect, x.Logs "agent_request_error" → P x

/-- A request to one path and its failure may be told of. -/
structure Told.Of (P : Effect → Prop) (method path : Text) (body : Option Json) : Prop where
  request : P (.requested method path body)
  failure : ∀ x : Effect, x.Logs "agent_request_error" → P x

theorem Told.of (t : Told P) (method path : Text) (body : Option Json) :
    Told.Of P method path body := ⟨t.request method path body, t.failure⟩

theorem exchange_keeps (f : Frame P R) {method path : Text} {body : Option Json}
    (hp : P (.requested method path body)) (socket : Path) :
    Keeps R (exchange socket method path body) := by
  intro h
  have hanswered : R h { h with agent := (h.agent.answer path).2 } :=
    f.step (.use h.timer _ h.service h.terminal h.drawn (List.suffix_refl _) (List.suffix_refl _))
  rw [result_exchange]
  unfold asked sent
  split
  · exact f.trans hanswered (f.step (.emit _ hp))
  · rwa [List.append_nil]

theorem socketThere_keeps (f : Frame P R) (socket : Path) : Keeps R (socketThere socket) := by
  intro h
  rw [result_socketThere]
  exact f.refl h

section

variable [Runtime]

/-- A request does no more than to look for the socket, to exchange and to tell of a failure. -/
theorem request_inherits (f : Hereditary P S) {socket : Path} {method path : Text}
    {body : Option Json} (hs : S (socketThere socket)) (hx : S (exchange socket method path body))
    (hp : ∀ x : Effect, x.Logs "agent_request_error" → P x) :
    S (request socket method path body) := by
  have hlog (kind message : Text) : S (logFailure socket method path kind message) :=
    f.log (.of_names rfl) hp
  unfold request
  refine f.bind hs fun there => ?_
  dsimp only
  split
  · exact f.fail_bind _ _
  split
  · exact f.fail_bind _ _
  refine f.bind hx fun reply => ?_
  cases reply with
  | failed e =>
    dsimp only
    split
    · exact f.bind (hlog _ _) fun _ => f.fail _
    · exact f.bind (hlog _ _) fun _ => f.fail _
  | reply status bytes =>
    refine f.bind (f.take _) fun document => ?_
    split
    · split
      · exact f.pure _
      · exact f.fail _
    · exact f.bind (hlog _ _) fun _ => f.fail _

/-- The clipboard is asked for only where no text has been given. -/
theorem inputText_inherits (f : Hereditary P S) {ctx : Context}
    (hc : ctx.input = none → S (clipboard ctx)) : S (inputText ctx) := by
  unfold inputText
  split
  · exact f.pure _
  · exact f.bind (hc ‹_›) fun _ => f.bind (f.check _) fun _ => f.pure _

theorem request_keeps (f : Frame P R) {socket : Path} {method path : Text} {body : Option Json}
    (t : Told.Of P method path body) : Keeps R (request socket method path body) :=
  request_inherits f.hereditary (socketThere_keeps f socket) (exchange_keeps f t.request socket)
    t.failure

theorem config_keeps (f : Frame P R) (t : Told.Of P "GET" "/config" none) (ctx : Context) :
    Keeps R (config ctx) := request_keeps f t

theorem inputText_keeps (f : Frame P R) (t : Told P) (ctx : Context) : Keeps R (inputText ctx) :=
  inputText_inherits f.hereditary fun _ => request_keeps f (t.of _ _ _)

end

def IsFailure (e : Halt) : Prop := ∃ f, e = .failed f

theorem isFailure (f : Failure) : IsFailure (.failed f) := ⟨f, rfl⟩

theorem exchange_halts (socket : Path) (method path : Text) (body : Option Json) :
    Halts IsFailure (exchange socket method path body) := by
  intro h e he
  rw [result_exchange] at he
  cases he

theorem socketThere_halts (socket : Path) : Halts IsFailure (socketThere socket) := by
  intro h e he
  rw [result_socketThere] at he
  cases hs : there socket h with
  | ok b =>
    rw [hs] at he
    cases he
  | error f =>
    rw [hs] at he
    cases he
    exact isFailure f

variable [Runtime]

theorem logFailure_halts {socket : Path} {method path kind message : Text} :
    Halts IsFailure (logFailure socket method path kind message) :=
  Job.log_halts (.of_nestings rfl) _

/-- A request is never interrupted. -/
theorem request_halts {socket : Path} {method path : Text} {body : Option Json} :
    Halts IsFailure (request socket method path body) := by
  unfold request
  refine (socketThere_halts socket).bind fun there => ?_
  dsimp only
  split
  · exact .fail_bind (isFailure _) _
  split
  · exact .fail_bind (isFailure _) _
  refine (exchange_halts socket method path body).bind fun reply => ?_
  cases reply with
  | failed e =>
    dsimp only
    split
    · exact logFailure_halts.bind fun _ => .fail (isFailure _)
    · exact logFailure_halts.bind fun _ => .fail (isFailure _)
  | reply status bytes =>
    refine (Halts.take fun f _ => isFailure f).bind fun document => ?_
    split
    · split
      · exact .pure _
      · exact .fail (isFailure _)
    · exact logFailure_halts.bind fun _ => .fail (isFailure _)

theorem inputText_halts (ctx : Context) : Halts IsFailure (inputText ctx) := by
  unfold inputText
  split
  · exact .pure _
  · exact request_halts.bind fun _ => (Halts.check fun m => isFailure _).bind fun _ => .pure _

end ClipActions.Agent
