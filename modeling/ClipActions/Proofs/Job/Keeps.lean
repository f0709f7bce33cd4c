import ClipActions.Proofs.Host.Frame
import ClipActions.Proofs.Job.Hereditary

/-! Jobs keep a frame if what they are made of does: what a job leaves behind is hereditary. -/
namespace ClipActions

/-- Whatever host a job begins with, it leaves one that stands in a relation to it. -/
def Job.Keeps {α : Type} (R : Host → Host → Prop) (job : Job α) : Prop :=
  ∀ h, R h (job.result h).2

theorem Job.Keeps.after {α : Type} {R : Host → Host → Prop} {job : Job α} {a : Except Halt α}
    {h k : Host} (hk : Keeps R job) (hr : job.result h = (a, k)) : R h k := by
  have hleft := hk h
  rwa [hr] at hleft

namespace Host.Frame

open Job (Keeps)

variable {α β : Type} {P : Effect → Prop} {R : Host → Host → Prop} {x : Job α}

theorem pure (f : Frame P R) (a : α) : Keeps R (Pure.pure a : Job α) := fun h => f.refl h

theorem throw (f : Frame P R) (e : Halt) : Keeps R (MonadExcept.throw e : Job α) :=
  fun h => f.refl h

/-- What comes second counts only where something comes of the first. -/
theorem bind_of_ok (f : Frame P R) {g : α → Job β} (hx : Keeps R x)
    (hg : ∀ h a k, x.result h = (.ok a, k) → Keeps R (g a)) : Keeps R (x >>= g) := by
  intro h
  have hx := hx h
  rw [Job.result_bind]
  cases hr : x.result h with
  | mk r k =>
    rw [hr] at hx
    cases r with
    | error e => exact hx
    | ok a => exact f.trans hx (hg h a k hr k)

/-- What a job does with the host it begins with. -/
theorem get {g : Host → Job α} (hg : ∀ h, R h ((g h).result h).2) :
    Keeps R ((MonadState.get : Job Host) >>= g) := hg

theorem settle (hx : Keeps R x) : Keeps R (Job.settle x) := by
  intro h
  rw [Job.result_settle]
  exact hx h

theorem handle (f : Frame P R) {handler : Failure → Job α} (hx : Keeps R x)
    (hf : ∀ e, Keeps R (handler e)) : Keeps R (Job.handle x handler) := by
  intro h
  have hx := hx h
  rw [Job.result_handle]
  cases hr : x.result h with
  | mk r k =>
    rw [hr] at hx
    cases r with
    | ok a => exact hx
    | error e =>
      cases e with
      | failed e => exact f.trans hx (hf e k)
      | interrupted i => exact hx

theorem emit (f : Frame P R) {e : Effect} (he : P e) : Keeps R (Job.emit e) :=
  fun _ => f.step (.emit e he)

theorem readTimer (f : Frame P R) : Keeps R Job.readTimer := by
  intro h
  rw [Job.readTimer, Job.result_bind_ok (Job.result_get h)]
  split
  · exact f.refl h
  · exact f.refl h
  · rename_i next rest _ ht
    have hs : rest <:+ h.timer := ht ▸ List.suffix_cons next rest
    exact f.step (.use rest h.agent h.service h.terminal h.drawn hs (List.suffix_refl _))

theorem now (f : Frame P R) : Keeps R Job.now := fun h => f.refl h

theorem newRunId (f : Frame P R) : Keeps R Job.newRunId :=
  get fun h => f.step (.use h.timer h.agent h.service h.terminal _ (List.suffix_refl _)
    (List.suffix_refl _))

theorem readLine (f : Frame P R) : Keeps R Job.readLine :=
  get fun h => f.step (.use h.timer h.agent h.service _ h.drawn (List.suffix_refl _)
    (List.suffix_refl _))

section

variable [Runtime]

/-- A record goes to the log file or nowhere. -/
theorem logRecord (f : Frame P R) (r : Log.Record) : Keeps R (Job.logRecord r) := by
  unfold Job.logRecord
  split
  · refine get fun h => ?_
    cases ht : h.target with
    | observer => exact f.refl h
    | nowhere => exact f.refl h
    | file p first =>
      dsimp only
      cases Log.Block.format first h.now r with
      | error e => exact f.refl h
      | ok block =>
        refine f.step (.log _ (.file p false) ⟨by simp [ht, Log.Target.file?], fun ho => ?_⟩)
        dsimp only
        cases Utf8.encode? (block ++ "\n") with
        | none => exact .inl rfl
        | some bytes =>
          obtain ⟨l, hl⟩ := ho p (by simp [ht, Log.Target.file?])
          refine .inr ⟨l, hl, ?_⟩
          obtain ⟨p', c, hp, hloc, hn⟩ := hl
          rw [ht] at hp
          cases hp
          exact Disk.append_grown hloc hn bytes
  · exact f.pure _

theorem tell (f : Frame P R) {e : Log.Event} {Q : Data → Prop} (he : e.Plain)
    (hs : ∀ x ∈ e.fields, x.1 = "error" ∨ x.1 = "message" → Q x.2)
    (hp : ∀ x : Effect, x.Tells e.name Q → P x) : Keeps R (Job.log e) := by
  by_cases hshallow : e.Shallow
  · rw [Job.log_of_shallow hshallow]
    refine get fun h => ?_
    have hrecord : P (.logged h.target e.level (e.record h.now)) :=
      hp _ ⟨h.target, h.now, e, rfl, he, rfl, hs⟩
    exact f.trans (f.step (.emit _ hrecord)) (f.logRecord _ _)
  · intro h
    rw [Job.result_log_deep hshallow]
    exact f.refl h

end

theorem copy (f : Frame P R) {content : Json} (hp : P (.copied content)) :
    Keeps R (Agent.copy content) := by
  refine get fun h => ?_
  split
  · exact f.refl h
  · exact f.refl h
  · exact f.step (.emit _ hp)

theorem openService (f : Frame P R) {operation : Text} {arguments : Json.Fields}
    (hp : P (.called operation arguments)) : Keeps R (Model.openService operation arguments) := by
  refine f.bind_of_ok (f.emit hp) fun _ _ _ _ => get fun h => ?_
  split
  · exact f.refl h
  · exact f.refl h

variable [Runtime]

theorem callService (f : Frame P R) {service : Text} {arguments : Json.Fields}
    (hl : ∀ x : Effect, x.Logs "provider_log" → P x)
    (hp : P (.called (service ++ ".create") arguments)) (target : Option Text) :
    Keeps R (Model.callService service target arguments) := by
  have hlog : ∀ message, Keeps R (Model.logServiceError service message) :=
    fun message => f.tell (.of_names rfl) (Q := fun _ => True) (fun _ _ _ => trivial)
      fun x hx => hl x hx.logs
  unfold Model.callService
  refine f.bind_of_ok (f.emit hp) fun _ _ _ _ => get fun h => ?_
  split
  rename_i answer left heq
  have hleft : left <:+ h.service := by
    split at heq
    · cases heq
      exact List.nil_suffix
    · rename_i hservice
      cases heq
      exact hservice ▸ List.suffix_cons _ _
  rw [Job.result_bind_ok (Job.result_set _ _)]
  refine f.trans (f.step (.use h.timer h.agent left h.terminal h.drawn (List.suffix_refl _)
    hleft)) ?_
  cases answer with
  | ok reply => exact f.refl _
  | error e =>
    dsimp only
    split
    · split
      · exact f.bind_of_ok (hlog _) (fun _ _ _ _ => f.throw _) _
      · exact f.refl _
    · exact f.refl _

theorem hereditary (f : Frame P R) : Job.Hereditary P (Keeps R) where
  pure := f.pure
  throw := f.throw
  bind_of_ok := f.bind_of_ok
  settle := settle
  handle := f.handle
  emit := f.emit
  tell := f.tell
  readTimer := f.readTimer
  copy := f.copy
  openService := f.openService
  callService := f.callService

end Host.Frame

namespace Job

/-! Changes of the disk that are no log are not told of. -/

theorem change_adds (g : Disk → Disk × Option Failure) : Keeps (Host.Adds P) (change g) := by
  intro h
  rw [result_change]
  split
  · exact .of_eq rfl
  · exact .of_eq rfl

theorem setTarget_trace (file : Option Text) (h : Host) :
    ((setTarget file).result h).2.trace = h.trace := by
  have f := (Host.frame_adds fun _ => False).hereditary
  have hmodify : ∀ target, Keeps (Host.Adds fun _ => False)
      (modify fun h => { h with target } : Job Unit) := fun target k => .of_eq rfl
  have hset : Keeps (Host.Adds fun _ => False) (setTarget file) := by
    unfold setTarget
    split
    · exact hmodify _
    · exact f.bind (change_adds _) fun _ => f.bind (change_adds _) fun _ => hmodify _
  obtain ⟨es, hes, hnone⟩ := hset h
  rw [hes, List.eq_nil_iff_forall_not_mem.2 hnone, List.append_nil]

end Job
end ClipActions
