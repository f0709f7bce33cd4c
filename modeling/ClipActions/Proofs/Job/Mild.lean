import ClipActions.Plugin
import ClipActions.Proofs.Agent.Requests

/-!
Mild jobs. A halt is mild if it is a failure or comes from the keyboard, and a host is mild if nothing
that a run meets on it halts in another way. On a mild host jobs halt mildly and leave the host mild,
so what is true of each part of a job is true of the whole.
-/
namespace ClipActions

open Host (Frame)

open Job (Halts Keeps)

def Halt.Mild : Halt → Prop
  | .failed _ | .interrupted (.keyboard _) => True
  | _ => False

def MildEnd {α : Type} (result : Except Halt α) : Prop := ∀ e, result = .error e → e.Mild

theorem MildEnd.ok {α : Type} (a : α) : MildEnd (.ok a) := fun _ he => by cases he

theorem MildEnd.error {α : Type} {e : Halt} (he : e.Mild) : MildEnd (.error e : Except Halt α) := by
  intro e' h
  cases h
  exact he

/-- A program that stops mildly as long as its calls are answered mildly. -/
def Program.Mild {α : Type} : Program α → Prop
  | done _ => True
  | stop h => h.Mild
  | ask _ next => ∀ answer, MildEnd answer → (next answer).Mild

def Action.Mild (a : Action) : Prop := ∀ task, (a.run task).Mild

/-- A plugin file that loads mildly and describes a mild action, if it describes one. -/
structure Export.Mild (e : Export) : Prop where
  halt : ∀ h, e.halt = some h → h.Mild
  action : ∀ a, Plugin.exported? e.attributes = some a → a.Mild

/-- Nothing on a host halts in any other way than mildly: neither the model service nor the
clipboard, neither plugin files nor the actions that are there already. -/
structure Host.Mild (h : Host) : Prop where
  service : ∀ answer ∈ h.service, MildEnd answer
  silence : MildEnd h.silence
  opening : ∀ operation arguments e, h.openHalt? operation arguments = some e → e.Mild
  copying : ∀ content e, h.copyHalt? content = some e → e.Mild
  loading : ∀ name file, (h.load name file).Mild
  registry : ∀ r, h.registry = some r → ∀ a ∈ r.actions, a.Mild

/-- Nothing that a job is made of makes a host less mild. -/
theorem Host.frame_mild (P : Effect → Prop) : Frame P fun h k => h.Mild → k.Mild where
  refl _ hm := hm
  trans hk hm h := hm (hk h)
  step hs hm := by
    cases hs with
    | emit e he => exact ⟨hm.service, hm.silence, hm.opening, hm.copying, hm.loading, hm.registry⟩
    | log disk target hl =>
      exact ⟨hm.service, hm.silence, hm.opening, hm.copying, hm.loading, hm.registry⟩
    | use timer agent service terminal drawn ht hs =>
      exact ⟨fun answer ha => hm.service answer (hs.subset ha), hm.silence, hm.opening, hm.copying,
        hm.loading, hm.registry⟩

theorem Host.Mild.writing {h : Host} (hm : h.Mild) (trace : List Effect) (disk : Disk)
    (target : Log.Target) : { h with trace, disk, target }.Mild :=
  ⟨hm.service, hm.silence, hm.opening, hm.copying, hm.loading, hm.registry⟩

namespace Job

variable {α β : Type} {P Q : α → Prop} {Q' : β → Prop} {x : Job α}

/-- From a mild host a job leads to a mild one, with a result that has a property or a mild halt. -/
structure MildAt (Q : α → Prop) (job : Job α) (h : Host) : Prop where
  host : (job.result h).2.Mild
  ending : MildEnd (job.result h).1
  result : ∀ a, (job.result h).1 = .ok a → Q a

/-- A job that is mild on every mild host. -/
def Mild (Q : α → Prop) (job : Job α) : Prop := ∀ h, h.Mild → MildAt Q job h

def Any (_ : α) : Prop := True

namespace Mild

theorem mono (hx : Mild P x) (hq : ∀ a, P a → Q a) : Mild Q x :=
  fun h hm => ⟨(hx h hm).host, (hx h hm).ending, fun a ha => hq a ((hx h hm).result a ha)⟩

theorem any (hx : Mild P x) : Mild Any x := hx.mono fun _ _ => trivial

/-- A job that keeps hosts mild and halts mildly in any case. -/
theorem of_halts (hk : Keeps (fun h k : Host => h.Mild → k.Mild) x) (hh : Halts Halt.Mild x) :
    Mild Any x :=
  fun h hm => ⟨hk h hm, hh h, fun _ _ => trivial⟩

theorem pure {a : α} (ha : Q a) : Mild Q (Pure.pure a) := by
  refine fun h hm => ⟨hm, .ok a, fun b hb => ?_⟩
  cases hb
  exact ha

theorem throw {e : Halt} (he : e.Mild) : Mild Q (MonadExcept.throw e : Job α) :=
  fun _ hm => ⟨hm, .error he, fun _ ha => by cases ha⟩

theorem fail (f : Failure) : Mild Q (Job.fail f : Job α) := throw trivial

theorem check (c : Checked α) : Mild (fun a => c = .ok a) (Job.check c) := by
  cases c with
  | ok a => exact pure rfl
  | error m => exact fail _

theorem take (c : Except Failure α) : Mild Any (Job.take c) := by
  cases c with
  | ok a => exact pure trivial
  | error f => exact fail f

theorem bind {g : α → Job β} (hx : Mild Q x) (hg : ∀ a, Q a → Mild Q' (g a)) :
    Mild Q' (x >>= g) := by
  intro h hm
  obtain ⟨hhost, hend, hresult⟩ := hx h hm
  cases hr : x.result h with
  | mk result k =>
    rw [hr] at hhost hend hresult
    cases result with
    | ok a =>
      have hrest := hg a (hresult a rfl) k hhost
      exact ⟨by rw [result_bind_ok hr]; exact hrest.host,
        by rw [result_bind_ok hr]; exact hrest.ending,
        fun b hb => hrest.result b (by rw [← hb, result_bind_ok hr])⟩
    | error e =>
      have hbind := result_bind_error hr g
      exact ⟨by rw [hbind]; exact hhost, by rw [hbind]; exact .error (hend e rfl),
        fun b hb => by rw [hbind] at hb; cases hb⟩

theorem map {g : α → β} (hx : Mild Q x) (hg : ∀ a, Q a → Q' (g a)) : Mild Q' (g <$> x) := by
  rw [← bind_pure_comp]
  exact hx.bind fun a ha => pure (hg a ha)

/-- What a job does with the host that it begins with. -/
theorem get {g : Host → Job α} (hg : ∀ h, h.Mild → MildAt Q (g h) h) :
    Mild Q ((MonadState.get : Job Host) >>= g) :=
  fun h hm => ⟨(hg h hm).host, (hg h hm).ending, (hg h hm).result⟩

/-- The end of a job as a value: a mild halt, or a result. -/
theorem settle (hx : Mild Q x) :
    Mild (fun result => MildEnd result ∧ ∀ a, result = .ok a → Q a) (Job.settle x) := by
  intro h hm
  obtain ⟨hhost, hend, hresult⟩ := hx h hm
  have hsettle := result_settle x h
  refine ⟨by rw [hsettle]; exact hhost, by rw [hsettle]; exact .ok _, fun result hr => ?_⟩
  rw [hsettle] at hr
  cases hr
  exact ⟨hend, hresult⟩

theorem handle {handler : Failure → Job α} (hx : Mild Q x) (hf : ∀ f, Mild Q (handler f)) :
    Mild Q (Job.handle x handler) := by
  intro h hm
  obtain ⟨hhost, hend, hresult⟩ := hx h hm
  have hhandle := result_handle x handler h
  cases hr : x.result h with
  | mk result k =>
    rw [hr] at hhost hend hresult hhandle
    rcases result with (f | i) | a
    · obtain ⟨hhost, hend, hresult⟩ := hf f k hhost
      exact ⟨by rw [hhandle]; exact hhost, by rw [hhandle]; exact hend,
        fun a ha => hresult a (by rw [← ha, hhandle])⟩
    · exact ⟨by rw [hhandle]; exact hhost, by rw [hhandle]; exact .error (hend _ rfl),
        fun a ha => by rw [hhandle] at ha; cases ha⟩
    · exact ⟨by rw [hhandle]; exact hhost, by rw [hhandle]; exact .ok a,
        fun b hb => hresult b (by rw [← hb, hhandle])⟩

theorem attempt (hx : Mild Q x) : Mild (fun result => ∀ a, result = .ok a → Q a) (Job.attempt x) := by
  refine handle (hx.map fun a ha b hb => ?_) fun f => pure fun a ha => by cases ha
  cases hb
  exact ha

theorem forM {g : α → Job Unit} (hg : ∀ a, Mild Any (g a)) (as : List α) : Mild Any (as.forM g) := by
  induction as with
  | nil => exact pure trivial
  | cons a as ih => exact (hg a).bind fun _ _ => ih

/-! What jobs are made of. -/

theorem emit (e : Effect) : Mild Any (Job.emit e) :=
  .of_halts ((Host.frame_mild fun _ => True).emit trivial) (.emit e)

section

variable [Runtime]

theorem say (line : Text) : Mild Any (Job.say line) :=
  .of_halts ((Host.frame_mild fun _ => True).hereditary.say trivial) (.say fun _ => trivial)

theorem log (e : Log.Event) : Mild Any (Job.log e) := by
  have hrecord : ∀ r, Halts Halt.Mild (Job.logRecord r) := by
    intro r
    unfold Job.logRecord
    split
    · refine .get fun h e he => ?_
      split at he
      · cases he
      · cases he
      · exact (Halts.take fun _ _ => trivial).bind (fun _ => fun _ _ hk => by cases hk) h e he
    · exact .pure _
  by_cases hs : e.Shallow
  · refine .of_halts (fun h hm => ?_) fun h e' he => ?_
    · obtain ⟨disk, target, hk⟩ := host_log hs h
      rw [hk]
      exact hm.writing _ _ _
    · rw [result_log hs] at he
      exact hrecord _ _ e' he
  · refine .of_halts (fun h hm => ?_) fun h e' he => ?_
    · rwa [result_log_deep hs]
    · rw [result_log_deep hs] at he
      cases he
      trivial

theorem warn (message event : Text) (fields : List (Text × Data)) :
    Mild Any (Job.warn message event fields) := (emit _).bind fun _ _ => log _

end

theorem readTimer : Mild Any Job.readTimer := by
  refine .of_halts ((Host.frame_mild fun _ => True).readTimer) fun h e he => ?_
  unfold Job.readTimer at he
  rw [result_bind_ok (result_get h)] at he
  split at he <;> cases he

theorem since (start : Double) : Mild Any (Job.since start) := by
  refine readTimer.bind fun t _ => ?_
  split
  · exact pure trivial
  · exact fail _

theorem readLine : Mild Any Job.readLine :=
  .of_halts (Host.frame_mild fun _ => True).readLine fun _ _ he => by cases he

theorem change (g : Disk → Disk × Option Failure) : Mild Any (Job.change g) := by
  refine .of_halts (fun h hm => ?_) (.change fun _ _ _ => trivial)
  rw [result_change]
  split
  · exact hm.writing _ _ _
  · exact hm.writing _ _ _

end Mild
end Job

/-- A failure is mild. -/
theorem Agent.IsFailure.mild {e : Halt} (h : Agent.IsFailure e) : e.Mild := by
  obtain ⟨f, rfl⟩ := h
  trivial

end ClipActions
