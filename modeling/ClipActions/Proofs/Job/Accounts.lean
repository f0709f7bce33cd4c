import ClipActions.Proofs.Job.Keeps
import ClipActions.Proofs.Text.Leads
import ClipActions.Run

/-!
How jobs account for errors. A job that ends with an exit code has reported one error if the code
is 1, and none if it is 0; a job that is stopped leaves the report to its caller.
-/
namespace ClipActions

open Host (Adds Frame)

open Job (Keeps)

/-- An effect reports an error to the user. -/
def Effect.isReport : Effect → Bool
  | .complained t => Text.startsWith "Error: " t
  | _ => false

/-- An effect reports no error. -/
def Effect.Errorless (e : Effect) : Prop := e.isReport = false

theorem Effect.Logs.errorless {name : Text} {x : Effect} (h : x.Logs name) : x.Errorless := by
  cases x with
  | complained t => cases h
  | _ => rfl

theorem Effect.errorless_warning (t : Text) :
    Errorless (.complained ("Warning: " ++ t ++ "\n")) := rfl

theorem Effect.isReport_error (t : Text) :
    isReport (.complained ("Error: " ++ t ++ "\n")) = true := by
  rw [isReport, Text.startsWith_iff, List.append_assoc]
  exact List.prefix_append _ _

def reports (es : List Effect) : Nat := es.countP Effect.isReport

theorem reports_append (es fs : List Effect) : reports (es ++ fs) = reports es + reports fs :=
  List.countP_append

theorem reports_eq_zero {es : List Effect} (h : ∀ e ∈ es, e.Errorless) : reports es = 0 :=
  List.countP_eq_zero.2 fun e he => by simpa [Effect.Errorless] using h e he

/-- An end agrees with what has been reported before it. -/
inductive Accounted : Except Halt Int → List Effect → Prop where
  | succeeded {es} (h : reports es = 0) : Accounted (.ok 0) es
  | failed {es} (h : reports es = 1) : Accounted (.ok 1) es
  | stopped {e es} (h : reports es = 0) : Accounted (.error e) es

theorem Accounted.after {result : Except Halt Int} {es fs : List Effect} (h : Accounted result fs)
    (hq : ∀ e ∈ es, e.Errorless) : Accounted result (es ++ fs) := by
  have hes := reports_eq_zero hq
  cases h with
  | succeeded h => exact .succeeded (by rw [reports_append, hes, h])
  | failed h => exact .failed (by rw [reports_append, hes, h])
  | stopped h => exact .stopped (by rw [reports_append, hes, h])

namespace Job

variable {α : Type} {x : Job α}

/-- Whatever host it begins with, the end of a job agrees with what it reports. -/
def Accounts (job : Job Int) : Prop :=
  ∀ h, ∃ es, (job.result h).2.trace = h.trace ++ es ∧ Accounted (job.result h).1 es

namespace Accounts

theorem succeed : Accounts (pure 0) := fun _ => ⟨[], by simp, .succeeded rfl⟩

theorem throw (e : Halt) : Accounts (MonadExcept.throw e) :=
  fun _ => ⟨[], (List.append_nil _).symm, .stopped rfl⟩

theorem fail (f : Failure) : Accounts (Job.fail f) := throw _

theorem report (t : Text) : Accounts (do Run.reportError t; return 1) := by
  refine fun h => ⟨[.complained ("Error: " ++ t ++ "\n")], rfl, .failed ?_⟩
  rw [reports, List.countP_singleton, if_pos (Effect.isReport_error t)]

/-- What comes first reports no error. -/
theorem bind {g : α → Job Int} (hx : Keeps (Adds Effect.Errorless) x) (hg : ∀ a, Accounts (g a)) :
    Accounts (x >>= g) := by
  intro h
  obtain ⟨es, hes, hnone⟩ := hx h
  rw [result_bind]
  cases hr : x.result h with
  | mk result k =>
    rw [hr] at hes
    cases result with
    | error e => exact ⟨es, hes, .stopped (reports_eq_zero hnone)⟩
    | ok a =>
      obtain ⟨fs, hfs, haccounted⟩ := hg a k
      refine ⟨es ++ fs, ?_, haccounted.after hnone⟩
      rw [hfs, hes, List.append_assoc]

end Accounts
end Job
end ClipActions
