import ClipActions.Command.Report
import ClipActions.Proofs.Job.Result

/-!
What a replay is made of: the record that is found, the options that it gives, and the run of these
options.
-/
namespace ClipActions

variable {copy yes : Bool} {r : History.Record} {o : Run.Options}

/-- A replay is that of the record which is found, if one is. -/
theorem Report.result_rerun [Runtime] (id : Json) (copy yes : Bool) (ctx : Context)
    (source : Registry.Source) (h : Host) : (rerun id copy yes ctx source).result h =
      match (History.find? id ctx.historyFile).result h with
      | (.ok (some r), k) => (Rerun.perform r copy yes ctx source).result k
      | (.ok none, k) =>
        (do Run.reportError ("History record not found: " ++ id.display); return 1 : Job Int).result k
      | (.error (.failed (.os fault)), k) => (do reportFault fault; return 1 : Job Int).result k
      | (.error e, k) => (.error e, k) := by
  unfold rerun onDisk
  rw [Job.result_bind, Job.result_attempt]
  rcases (History.find? id ctx.historyFile).result h with ⟨(f | i) | found, k⟩
  · cases f <;> rfl
  · rfl
  · cases found <;> rfl

namespace Rerun

/-- The input of a record stands in the place of a text to acquire, unless it is null. -/
theorem options_input (hn : r.find? "input" ≠ some .null) (ho : options r copy yes = .ok o) :
    o.input = some ((r.find? "input").getD (.str [])) := by
  unfold options at ho
  cases hargs : ((Json.Fields.find? r "args").getD .null |>.orElse (.arr [])).elements with
  | error m =>
    rw [hargs] at ho
    cases ho
  | ok args =>
    cases hid : (Json.obj r).need "id" with
    | error m =>
      rw [hargs, hid] at ho
      cases ho
    | ok id =>
      rw [hargs, hid] at ho
      cases ho
      cases hi : r.find? "input" with
      | none => rfl
      | some j =>
        rw [hi] at hn
        cases j with
        | null => exact absurd rfl hn
        | _ => rfl

end Rerun
end ClipActions
