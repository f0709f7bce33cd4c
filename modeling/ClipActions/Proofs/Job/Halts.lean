import ClipActions.Proofs.Job.Result

/-! The halts that a job can end with are those that its parts can end with. -/
namespace ClipActions.Job

variable {α β : Type} {E : Halt → Prop} {x : Job α}

/-- Every halt that a job ends with has a property. -/
def Halts (E : Halt → Prop) (job : Job α) : Prop := ∀ h e, (job.result h).1 = .error e → E e

namespace Halts

theorem pure (a : α) : Halts E (Pure.pure a : Job α) := fun _ _ he => by cases he

theorem throw {e : Halt} (he : E e) : Halts E (MonadExcept.throw e : Job α) := by
  intro h e' h'
  cases h'
  exact he

theorem fail {f : Failure} (hf : E (.failed f)) : Halts E (Job.fail f : Job α) := throw hf

theorem check {c : Checked α} (hm : ∀ m, E (.failed (.misuse m))) : Halts E (Job.check c) := by
  cases c with
  | ok a => exact pure a
  | error m => exact fail (hm m)

theorem take {c : Except Failure α} (hc : ∀ f, c = .error f → E (.failed f)) :
    Halts E (Job.take c) := by
  cases c with
  | ok a => exact pure a
  | error f => exact fail (hc f rfl)

theorem bind {g : α → Job β} (hx : Halts E x) (hg : ∀ a, Halts E (g a)) : Halts E (x >>= g) := by
  intro h e he
  rw [result_bind] at he
  cases hr : x.result h with
  | mk r k =>
    rw [hr] at he
    cases r with
    | error e' =>
      cases he
      exact hx h e (by rw [hr])
    | ok a => exact hg a k e he

/-- Nothing comes after a failure. -/
theorem fail_bind {f : Failure} (hf : E (.failed f)) (g : β → Job α) :
    Halts E (Job.fail f >>= g) := throw hf

/-- What a job does with the host it begins with. -/
theorem get {g : Host → Job α} (hg : ∀ h e, ((g h).result h).1 = .error e → E e) :
    Halts E ((MonadState.get : Job Host) >>= g) := hg

theorem map (g : α → β) (hx : Halts E x) : Halts E (g <$> x) := by
  rw [← bind_pure_comp]
  exact hx.bind fun _ => pure _

theorem handle {handler : Failure → Job α} (hx : Halts E x) (hf : ∀ f, Halts E (handler f)) :
    Halts E (Job.handle x handler) := by
  intro h e he
  rw [result_handle] at he
  split at he
  · cases he
  · exact hf _ _ e he
  · rename_i hr
    cases he
    exact hx h _ (by rw [hr])

theorem attempt (hx : Halts E x) : Halts E (Job.attempt x) :=
  handle (hx.map _) fun _ => pure _

theorem forM {g : α → Job Unit} (hg : ∀ a, Halts E (g a)) (as : List α) :
    Halts E (as.forM g) := by
  induction as with
  | nil => exact pure ()
  | cons a as ih => exact (hg a).bind fun _ => ih

theorem emit (e : Effect) : Halts E (Job.emit e) := fun _ _ he => by cases he

section

variable [Runtime]

theorem say {line : Text} (hf : ∀ e, E (.failed (.thrown e))) : Halts E (Job.say line) := by
  unfold Job.say
  split
  · exact fail (hf _)
  · exact emit _

end

theorem change {g : Disk → Disk × Option Failure}
    (hg : ∀ d f, (g d).2 = some f → E (.failed f)) : Halts E (Job.change g) := by
  intro h e he
  rw [result_change] at he
  split at he
  · cases he
  · cases he
    exact hg _ _ ‹_›

end Halts
end ClipActions.Job
