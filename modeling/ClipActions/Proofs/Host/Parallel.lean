import ClipActions.Proofs.Job.Hereditary

/-!
One job on two hosts. A job runs in parallel on hosts of a relation if it comes to the same end on both
and leaves hosts of this relation. Where the relation leaves alone what the stages of a run look up,
they all do.
-/
namespace ClipActions

/-- From two hosts in a relation a job comes to the same end and leaves two hosts in this relation. -/
def Job.Parallel {α : Type} (T : Host → Host → Prop) (x : Job α) : Prop :=
  ∀ h k, T h k → (x.result k).1 = (x.result h).1 ∧ T (x.result h).2 (x.result k).2

namespace Job.Parallel

variable {α β : Type} {T : Host → Host → Prop} {x : Job α}

theorem pure (a : α) : Parallel T (Pure.pure a : Job α) := fun _ _ ht => ⟨rfl, ht⟩

theorem throw (e : Halt) : Parallel T (MonadExcept.throw e : Job α) := fun _ _ ht => ⟨rfl, ht⟩

theorem take (c : Except Failure α) : Parallel T (Job.take c) := by
  cases c with
  | ok a => exact pure a
  | error f => exact throw _

theorem bind_of_ok {g : α → Job β} (hx : Parallel T x)
    (hg : ∀ h a k, x.result h = (.ok a, k) → Parallel T (g a)) : Parallel T (x >>= g) := by
  intro h k ht
  obtain ⟨hend, hleft⟩ := hx h k ht
  rw [result_bind, result_bind]
  cases hr : x.result h with
  | mk r m =>
    cases hr' : x.result k with
    | mk r' m' =>
      rw [hr, hr'] at hend hleft
      cases hend
      cases r with
      | error e => exact ⟨rfl, hleft⟩
      | ok a => exact hg h a m hr m m' hleft

theorem bind {g : α → Job β} (hx : Parallel T x) (hg : ∀ a, Parallel T (g a)) :
    Parallel T (x >>= g) := hx.bind_of_ok fun _ a _ _ => hg a

theorem settle (hx : Parallel T x) : Parallel T (Job.settle x) := by
  intro h k ht
  obtain ⟨hend, hleft⟩ := hx h k ht
  rw [result_settle, result_settle, hend]
  exact ⟨rfl, hleft⟩

theorem handle {handler : Failure → Job α} (hx : Parallel T x)
    (hf : ∀ f, Parallel T (handler f)) : Parallel T (Job.handle x handler) := by
  intro h k ht
  obtain ⟨hend, hleft⟩ := hx h k ht
  rw [result_handle, result_handle]
  cases hr : x.result h with
  | mk r m =>
    cases hr' : x.result k with
    | mk r' m' =>
      rw [hr, hr'] at hend hleft
      cases hend
      rcases r with (f | i) | a
      · exact hf f m m' hleft
      · exact ⟨rfl, hleft⟩
      · exact ⟨rfl, hleft⟩

/-- What a job looks up is the same on both hosts. -/
theorem get {f : Host → Job α} (hs : ∀ h k, T h k → f k = f h) (hf : ∀ h, Parallel T (f h)) :
    Parallel T ((MonadState.get : Job Host) >>= f) := by
  intro h k ht
  rw [result_bind_ok (result_get h), result_bind_ok (result_get k), hs h k ht]
  exact hf h h k ht

/-- What a job looks up is the same on both hosts, and so is what it changes. -/
theorem getSet {f : Host → Host} {g : Host → Job α} (hf : ∀ h k, T h k → T (f h) (f k))
    (hs : ∀ h k, T h k → g k = g h) (hg : ∀ h, Parallel T (g h)) :
    Parallel T ((MonadState.get : Job Host) >>= fun h => set (f h) >>= fun _ => g h) := by
  intro h k ht
  rw [result_bind_ok (result_get h), result_bind_ok (result_get k),
    result_bind_ok (result_set _ _), result_bind_ok (result_set _ _), hs h k ht]
  exact hg h _ _ (hf h k ht)

end Job.Parallel

section

variable [Runtime]

/-- Hosts that differ in their agents, their disks and their traces at most, and still do when the
same has been done on both. -/
structure Host.Likeness (T : Host → Host → Prop) : Prop where
  rest : ∀ {h k}, T h k → k = { h with agent := k.agent, disk := k.disk, trace := k.trace }
  add : ∀ {h k} (e : Effect), T h k →
    T { h with trace := h.trace ++ [e] } { k with trace := k.trace ++ [e] }
  use : ∀ {h k} (timer : List Double) (service : List Service.Answer) (terminal : Text)
    (drawn : Nat), T h k →
      T { h with timer, service, terminal, drawn } { k with timer, service, terminal, drawn }
  logRecord : ∀ r, Job.Parallel T (Job.logRecord r)

end

namespace Host.Likeness

open Job (Parallel)

variable {T : Host → Host → Prop} {h k : Host}

variable [Runtime]

theorem split (l : Likeness T) (ht : T h k) : ∃ agent disk trace, k = { h with agent, disk, trace } :=
  ⟨_, _, _, l.rest ht⟩

theorem emit (l : Likeness T) (e : Effect) : Parallel T (Job.emit e) :=
  fun _ _ ht => ⟨rfl, l.add e ht⟩

theorem readTimer (l : Likeness T) : Parallel T Job.readTimer := by
  intro h k ht
  have hused := fun timer => l.use timer h.service h.terminal h.drawn ht
  obtain ⟨agent, disk, trace, rfl⟩ := l.split ht
  unfold Job.readTimer
  rw [Job.result_bind_ok (Job.result_get _), Job.result_bind_ok (Job.result_get _)]
  dsimp only
  split
  · exact ⟨rfl, ht⟩
  · exact ⟨rfl, ht⟩
  · exact ⟨rfl, hused _⟩

theorem readLine (l : Likeness T) : Parallel T Job.readLine := by
  intro h k ht
  have hused := fun terminal => l.use h.timer h.service terminal h.drawn ht
  obtain ⟨agent, disk, trace, rfl⟩ := l.split ht
  exact ⟨rfl, hused _⟩

theorem now (l : Likeness T) : Parallel T Job.now := by
  intro h k ht
  obtain ⟨agent, disk, trace, rfl⟩ := l.split ht
  exact ⟨rfl, ht⟩

theorem newRunId (l : Likeness T) : Parallel T Job.newRunId := by
  intro h k ht
  have hused := fun drawn => l.use h.timer h.service h.terminal drawn ht
  obtain ⟨agent, disk, trace, rfl⟩ := l.split ht
  exact ⟨rfl, hused _⟩

theorem log (l : Likeness T) (e : Log.Event) : Parallel T (Job.log e) := by
  refine .get (fun h k ht => ?_) fun h => ?_
  · rw [l.rest ht]
  · exact (Parallel.take _).bind fun _ => (l.emit _).bind fun _ => l.logRecord _

theorem copy (l : Likeness T) (content : Json) : Parallel T (Agent.copy content) := by
  refine .get (fun h k ht => by rw [l.rest ht]) fun h => ?_
  split
  · exact .throw _
  · exact .throw _
  · exact l.emit _

theorem openService (l : Likeness T) (operation : Text) (arguments : Json.Fields) :
    Parallel T (Model.openService operation arguments) := by
  refine (l.emit _).bind fun _ => .get (fun h k ht => by rw [l.rest ht]) fun h => ?_
  split
  · exact .throw _
  · exact .pure _

theorem callService (l : Likeness T) (service : Text) (arguments : Json.Fields)
    (target : Option Text) : Parallel T (Model.callService service target arguments) := by
  refine (l.emit _).bind fun _ => .getSet (fun h k ht => ?_) (fun h k ht => ?_) fun h => ?_
  · have hused := fun service => l.use h.timer service h.terminal h.drawn ht
    obtain ⟨agent, disk, trace, rfl⟩ := l.split ht
    exact hused _
  · obtain ⟨agent, disk, trace, rfl⟩ := l.split ht
    rfl
  · generalize Prod.fst _ = answer
    cases answer with
    | ok reply => exact .pure reply
    | error e =>
      dsimp only
      split
      · split
        · exact (l.log _).bind fun _ => .throw _
        · exact .throw _
      · exact .throw _

/-- What is done in parallel is handed on, whatever the parts of a job do to their surroundings. -/
theorem hereditary (l : Likeness T) : Job.Hereditary (fun _ => True) (Parallel T) where
  pure := .pure
  throw := .throw
  bind_of_ok := .bind_of_ok
  settle := .settle
  handle := .handle
  emit _ := l.emit _
  tell _ _ _ := l.log _
  readTimer := l.readTimer
  copy _ := l.copy _
  openService _ := l.openService _ _
  callService _ _ := l.callService _ _

end Host.Likeness
end ClipActions
