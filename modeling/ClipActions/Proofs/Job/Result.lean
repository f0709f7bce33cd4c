import ClipActions.Host

/-! What the parts of a job come to: the end of each and the host after it. -/
namespace ClipActions.Job

variable {α β : Type} {h k : Host}

@[simp] theorem result_pure (a : α) (h : Host) : (pure a : Job α).result h = (.ok a, h) := rfl

theorem result_bind (x : Job α) (f : α → Job β) (h : Host) :
    (x >>= f).result h = match x.result h with
      | (.ok a, k) => (f a).result k
      | (.error e, k) => (.error e, k) := by
  simp only [result, ExceptT.run, bind, ExceptT.bind, ExceptT.mk, StateT.bind]
  rcases x h with ⟨(e | a), k⟩ <;> rfl

theorem result_bind_ok {x : Job α} {a : α} (hx : x.result h = (.ok a, k)) (f : α → Job β) :
    (x >>= f).result h = (f a).result k := by
  rw [result_bind, hx]

theorem result_bind_error {x : Job α} {e : Halt} (hx : x.result h = (.error e, k))
    (f : α → Job β) : (x >>= f).result h = (.error e, k) := by
  rw [result_bind, hx]

/-- What ends with a result has had one on the way. -/
theorem bind_ok {x : Job α} {f : α → Job β} {b : β} (hb : (x >>= f).result h = (.ok b, k)) :
    ∃ a m, x.result h = (.ok a, m) ∧ (f a).result m = (.ok b, k) := by
  rw [result_bind] at hb
  split at hb
  · rename_i a m hx
    exact ⟨a, m, hx, hb⟩
  · cases hb

/-- What ends with a halt has met it first, or behind a result. -/
theorem bind_error {x : Job α} {f : α → Job β} {e : Halt}
    (hb : (x >>= f).result h = (.error e, k)) :
    x.result h = (.error e, k) ∨
      ∃ a m, x.result h = (.ok a, m) ∧ (f a).result m = (.error e, k) := by
  rw [result_bind] at hb
  split at hb
  · rename_i a m hx
    exact .inr ⟨a, m, hx, hb⟩
  · cases hb
    exact .inl ‹_›

theorem result_map (f : α → β) (x : Job α) (h : Host) :
    (f <$> x).result h = match x.result h with
      | (.ok a, k) => (.ok (f a), k)
      | (.error e, k) => (.error e, k) := by
  rw [← bind_pure_comp, result_bind]
  rcases x.result h with ⟨(e | a), k⟩ <;> rfl

theorem result_tryCatch (x : Job α) (handler : Halt → Job α) (h : Host) :
    (tryCatch x handler).result h = match x.result h with
      | (.ok a, k) => (.ok a, k)
      | (.error e, k) => (handler e).result k := by
  simp only [result, ExceptT.run, tryCatch, tryCatchThe, MonadExceptOf.tryCatch, ExceptT.tryCatch,
    ExceptT.mk, bind, StateT.bind]
  rcases x h with ⟨(e | a), k⟩ <;> rfl

@[simp] theorem result_settle (x : Job α) (h : Host) :
    (settle x).result h = (.ok (x.result h).1, (x.result h).2) := by
  rw [settle, result_tryCatch, result_map]
  rcases x.result h with ⟨(e | a), k⟩ <;> rfl

theorem result_handle (x : Job α) (handler : Failure → Job α) (h : Host) :
    (handle x handler).result h = match x.result h with
      | (.ok a, k) => (.ok a, k)
      | (.error (.failed f), k) => (handler f).result k
      | (.error (.interrupted i), k) => (.error (.interrupted i), k) := by
  rw [handle, result_tryCatch]
  rcases x.result h with ⟨((f | i) | a), k⟩ <;> rfl

/-- Where a failure is only reported in another way, a result is one of the job itself. -/
theorem handle_fail_ok {x : Job α} {g : Failure → Failure} {a : α}
    (ha : (handle x fun f => fail (g f)).result h = (.ok a, k)) : x.result h = (.ok a, k) := by
  rw [result_handle] at ha
  split at ha
  · rename_i hx
    rw [hx, ha]
  · cases ha
  · cases ha

theorem handle_fail_error {x : Job α} {g : Failure → Failure} {e : Halt}
    (he : (handle x fun f => fail (g f)).result h = (.error e, k)) :
    ∃ e', x.result h = (.error e', k) ∧ ∀ f, e' = .failed f → e = .failed (g f) := by
  rw [result_handle] at he
  split at he
  · cases he
  · rename_i f m hx
    cases he
    exact ⟨.failed f, hx, fun f' hf => by cases hf; rfl⟩
  · rename_i i m hx
    cases he
    exact ⟨.interrupted i, hx, nofun⟩

theorem result_attempt (x : Job α) (h : Host) :
    (attempt x).result h = match x.result h with
      | (.ok a, k) => (.ok (.ok a), k)
      | (.error (.failed f), k) => (.ok (.error f), k)
      | (.error (.interrupted i), k) => (.error (.interrupted i), k) := by
  rw [attempt, result_handle, result_map]
  rcases x.result h with ⟨((f | i) | a), k⟩ <;> rfl

@[simp] theorem result_get (h : Host) : (get : Job Host).result h = (.ok h, h) := rfl

@[simp] theorem result_set (h k : Host) : (set k : Job Unit).result h = (.ok (), k) := rfl

@[simp] theorem result_emit (e : Effect) (h : Host) :
    (emit e).result h = (.ok (), { h with trace := h.trace ++ [e] }) := rfl

section

variable [Runtime]

theorem say_ok {line : Text} (hk : (say line).result h = (.ok (), k)) :
    Runtime.outputFault? (line ++ "\n") = none ∧
      k = { h with trace := h.trace ++ [.printed (line ++ "\n")] } := by
  unfold say at hk
  cases hf : Runtime.outputFault? (line ++ "\n") with
  | some e =>
    rw [hf] at hk
    cases hk
  | none =>
    rw [hf] at hk
    cases hk
    exact ⟨rfl, rfl⟩

theorem say_error {line : Text} {e : Halt} (hk : (say line).result h = (.error e, k)) :
    (∃ x, Runtime.outputFault? (line ++ "\n") = some x ∧ e = .failed (.thrown x)) ∧ k = h := by
  unfold say at hk
  cases hf : Runtime.outputFault? (line ++ "\n") with
  | some x =>
    rw [hf] at hk
    cases hk
    exact ⟨⟨x, rfl, rfl⟩, rfl⟩
  | none =>
    rw [hf] at hk
    cases hk

/-- A line that the standard output takes is printed. -/
theorem result_say {line : Text} (hf : Runtime.outputFault? (line ++ "\n") = none) (h : Host) :
    (say line).result h = (.ok (), { h with trace := h.trace ++ [.printed (line ++ "\n")] }) := by
  unfold say
  rw [hf]
  rfl

/-- A line that the standard output refuses is not. -/
theorem result_say_refused {line : Text} {e : Thrown}
    (hf : Runtime.outputFault? (line ++ "\n") = some e) (h : Host) :
    (say line).result h = (.error (.failed (.thrown e)), h) := by
  unfold say
  rw [hf]
  rfl

/-- Lines are printed if the standard output takes each of them. -/
theorem forM_say_ok {lines : List Text} (hk : (lines.forM say).result h = (.ok (), k)) :
    (∀ line ∈ lines, Runtime.outputFault? (line ++ "\n") = none) ∧
      k = { h with trace := h.trace ++ lines.map fun line => .printed (line ++ "\n") } := by
  induction lines generalizing h with
  | nil =>
    cases hk
    exact ⟨nofun, by simp⟩
  | cons line lines ih =>
    obtain ⟨⟨⟩, m, hm, hk⟩ := bind_ok (x := say line) hk
    obtain ⟨hline, rfl⟩ := say_ok hm
    obtain ⟨hlines, rfl⟩ := ih hk
    exact ⟨List.forall_mem_cons.2 ⟨hline, hlines⟩, by simp⟩

/-- Lines are printed up to the first one that the standard output refuses. -/
theorem forM_say_error {lines : List Text} {e : Halt}
    (hk : (lines.forM say).result h = (.error e, k)) :
    (∃ line ∈ lines, ∃ x, Runtime.outputFault? (line ++ "\n") = some x ∧ e = .failed (.thrown x)) ∧
      ∃ told : List Text, k = { h with trace := h.trace ++ told.map .printed } := by
  induction lines generalizing h with
  | nil => cases hk
  | cons line lines ih =>
    rcases bind_error (x := say line) hk with hk | ⟨⟨⟩, m, hm, hk⟩
    · obtain ⟨⟨x, hx, he⟩, rfl⟩ := say_error hk
      exact ⟨⟨line, List.mem_cons_self, x, hx, he⟩, [], by simp⟩
    · obtain ⟨-, rfl⟩ := say_ok hm
      obtain ⟨⟨l, hl, hx⟩, told, rfl⟩ := ih hk
      exact ⟨⟨l, List.mem_cons_of_mem line hl, hx⟩, (line ++ "\n") :: told, by simp⟩

end

theorem result_readTimer (h : Host) : ∃ t ∈ Double.zero false :: h.timer, ∃ timer,
    timer <:+ h.timer ∧ readTimer.result h = (.ok t, { h with timer }) := by
  unfold readTimer
  rw [result_bind_ok (result_get h)]
  split
  · exact ⟨_, List.mem_cons_self, h.timer, List.suffix_refl _, rfl⟩
  · rename_i t ht
    exact ⟨t, by simp [ht], h.timer, List.suffix_refl _, rfl⟩
  · rename_i t rest _ ht
    exact ⟨t, by simp [ht], rest, ht ▸ List.suffix_cons t rest, rfl⟩

theorem result_sinceTenth (start : Double) (h : Host) : ∃ latency timer,
    (sinceTenth start).result h = (.ok latency, { h with timer }) := by
  obtain ⟨t, -, timer, -, ht⟩ := result_readTimer h
  exact ⟨(elapsed start t).roundTenth, timer, result_bind_ok ht _⟩

theorem result_somethingAt {p : Path} {n : Option Node} (hn : h.disk.find? p = .ok n) :
    (somethingAt p).result h = (.ok n.isSome, h) := by
  unfold somethingAt
  rw [result_bind_ok (result_get h), hn]
  rfl

@[simp] theorem result_check_ok (a : α) (h : Host) : (check (.ok a)).result h = (.ok a, h) := rfl

@[simp] theorem result_check_error (m : Misuse) (h : Host) :
    (check (.error m) : Job α).result h = (.error (.failed (.misuse m)), h) := rfl

theorem check_ok {c : Checked α} {a : α} (hc : (check c).result h = (.ok a, k)) : c = .ok a := by
  cases c with
  | ok b =>
    cases hc
    rfl
  | error m => cases hc

section

variable [Runtime]

/-- An event is handed over if its fields can be reduced. -/
theorem log_of_shallow {e : Log.Event} (he : e.Shallow) : log e =
    (get >>= fun host => emit (.logged host.target e.level (e.record host.now)) >>= fun _ =>
      logRecord { level := e.level, message := e.record host.now }) := by
  unfold log
  simp only [Log.Event.record?, if_pos he]
  rfl

theorem result_log_deep {e : Log.Event} (he : ¬ e.Shallow) (h : Host) :
    (log e).result h = (.error (.failed (.tooDeepToLog Runtime.overflow)), h) := by
  have htake : (take (e.record? h.now)).result h =
      (.error (.failed (.tooDeepToLog Runtime.overflow)), h) := by
    rw [Log.Event.record?, if_neg he]
    rfl
  unfold log
  rw [result_bind_ok (result_get h), result_bind_error htake]

end

theorem result_change (f : Disk → Disk × Option Failure) (h : Host) :
    (change f).result h = match (f h.disk).2 with
      | none => (.ok (), { h with disk := (f h.disk).1 })
      | some e => (.error (.failed e), { h with disk := (f h.disk).1 }) := by
  unfold change
  rw [result_bind_ok (result_get h)]
  dsimp only
  rw [result_bind_ok (result_set _ _)]
  cases (f h.disk).2 <;> rfl

theorem change_ok {f : Disk → Disk × Option Failure} (hk : (change f).result h = (.ok (), k)) :
    (f h.disk).2 = none ∧ k = { h with disk := (f h.disk).1 } := by
  rw [result_change] at hk
  split at hk
  · rename_i hf
    cases hk
    exact ⟨hf, rfl⟩
  · cases hk

end ClipActions.Job
