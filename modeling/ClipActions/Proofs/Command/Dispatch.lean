import ClipActions.Command.Invocation
import ClipActions.Proofs.Command.Reports
import ClipActions.Proofs.Registry.Loading
import ClipActions.Proofs.Run.Passage

/-!
What carrying out a command comes to. None but a run or a replay writes more than the log, and these
store one record at most; and no command tells of the beginning or the end of its process.
-/
namespace ClipActions

open History (Stores)

open Host (Adds Extends)

open Job (Keeps)

/-- An effect tells neither of the beginning of a process nor of its end. -/
def Effect.Inner (x : Effect) : Prop := ¬ x.Logs "app_start" ∧ ¬ x.Logs "app_stop"

namespace Effect

variable {name : Text} {Q : Data → Prop} {x : Effect}

theorem Logs.inner (h : x.Logs name) (hs : name ≠ "app_start") (ht : name ≠ "app_stop") :
    x.Inner :=
  ⟨fun hx => hs (Option.some.inj (h.symm.trans hx)),
    fun hx => ht (Option.some.inj (h.symm.trans hx))⟩

theorem inner_of_none (h : x.event? = none) : x.Inner := by
  unfold Inner Logs
  rw [h]
  exact ⟨(fun hx => by cases hx), fun hx => by cases hx⟩

end Effect

theorem agentTold_inner : Agent.Told Effect.Inner where
  request _ _ _ := Effect.inner_of_none rfl
  failure _ hx := hx.inner (by decide) (by decide)

theorem modelTold_inner : Model.Told Effect.Inner where
  service _ hx := hx.inner (by decide) (by decide)
  request _ hx := hx.logs.inner (by decide) (by decide)
  error _ hx := hx.inner (by decide) (by decide)
  response _ hx := hx.logs.inner (by decide) (by decide)

theorem runTold_inner : Run.Told Effect.Inner where
  model := modelTold_inner
  decision _ hx := hx.logs.inner (by decide) (by decide)
  printed _ := Effect.inner_of_none rfl
  called _ _ := Effect.inner_of_none rfl
  copied _ := Effect.inner_of_none rfl
  error _ := Effect.inner_of_none rfl

theorem registryTold_inner : Registry.Told Effect.Inner where
  warning _ := Effect.inner_of_none rfl
  event hn hx := by
    have hother : ∀ name ∈ (["plugin_load_failed", "plugin_skipped", "plugin_conflict",
      "registry_built"] : List Text), name ≠ "app_start" ∧ name ≠ "app_stop" := by decide
    exact hx.logs.inner (hother _ hn).1 (hother _ hn).2

theorem reportTold_inner : Report.Told Effect.Inner where
  printed _ := Effect.inner_of_none rfl
  error _ := Effect.inner_of_none rfl
  agent := agentTold_inner
  skipped _ hx := hx.inner (by decide) (by decide)

namespace Command

variable {dir : Path} {ctx : Context} {h k : Host}

section

variable [Runtime]

theorem get_extends {s : Registry.Source} (hs : s.load = Plugin.loadDirectory) :
    Keeps (Extends Effect.Inner) s.get := by
  refine Registry.get_keeps (Host.frame_extends _) registryTold_inner (fun h r => ?_) hs
  exact ⟨.of_eq rfl, .of_eq rfl rfl, rfl, List.suffix_refl _, rfl, rfl, rfl⟩

/-- A command writes to its log alone, or is a run that is concluded in the end. -/
def Runs (job : Job Int) (file : Path) (h : Host) : Prop :=
  Extends Effect.Inner h (job.result h).2 ∨
    ∃ (r : Run) (w : Run.Work) (m : Host), r.Replays ∧ Extends Effect.Inner h m ∧
      job.result h = (r.conclude file w).result m

theorem runs_perform (registry : Registry) (name : Json) {o : Run.Options}
    (ho : o.replayOf = .null ∨ ∃ id, o.replayOf = .str id) (ctx : Context) (h : Host) :
    Runs (Run.perform registry name o ctx) ctx.historyFile h := by
  have f := Host.frame_extends Effect.Inner
  have hask : ∀ p, Keeps (Extends Effect.Inner) (Gate.askTerminal (Gate.question p)) :=
    fun p => Gate.askTerminal_inherits f.hereditary f.readLine (Effect.inner_of_none rfl)
  have hunknown : Keeps (Extends Effect.Inner) (Run.reportUnknown registry name) :=
    Run.reportUnknown_inherits f.hereditary (fun _ => Effect.inner_of_none rfl)
      (fun _ hx => hx.inner (by decide) (by decide)) registry name
  obtain hk | ⟨r, h', w, m, u, -, hm, hr⟩ :=
    Run.perform_course f runTold_inner (Run.acquire_keeps f agentTold_inner o ctx) hask
      (fun _ => hunknown) h
  · exact .inl hk
  · refine .inr ⟨r, w, m, ?_, hm, hr⟩
    unfold Run.Replays
    rw [u.options]
    exact ho

/-- What comes first does not count if it only writes to the log. -/
theorem Runs.bind {α : Type} {file : Path} {job : Job α} {next : α → Job Int}
    (hj : Keeps (Extends Effect.Inner) job)
    (hn : ∀ a k, job.result h = (.ok a, k) → Runs (next a) file k) :
    Runs (job >>= next) file h := by
  have f := Host.frame_extends Effect.Inner
  have hfirst := hj h
  unfold Runs
  rw [Job.result_bind]
  cases hr : job.result h with
  | mk result k =>
    rw [hr] at hfirst
    cases result with
    | error e => exact .inl hfirst
    | ok a =>
      obtain hk | ⟨r, w, m, hreplay, hm, hk⟩ := hn a k hr
      · exact .inl (f.trans hfirst hk)
      · exact .inr ⟨r, w, m, hreplay, f.trans hfirst hm, hk⟩

theorem Runs.of_keeps {job : Job Int} (hj : Keeps (Extends Effect.Inner) job) (file : Path)
    (h : Host) : Runs job file h := .inl (hj h)

theorem runs_onDisk {α : Type} {job : Job α} {report : OsFault → Job Unit} {next : α → Job Int}
    {file : Path} (hj : Keeps (Extends Effect.Inner) job)
    (hr : ∀ fault, Keeps (Extends Effect.Inner) (report fault))
    (hn : ∀ a k, job.result h = (.ok a, k) → Runs (next a) file k) :
    Runs (Report.onDisk job report next) file h := by
  have f := Host.frame_extends Effect.Inner
  refine Runs.bind (f.hereditary.attempt hj) fun found k hfound => ?_
  rw [Job.result_attempt] at hfound
  split at hfound
  · rename_i a m hjob
    cases hfound
    exact hn a k hjob
  · rename_i e m hjob
    cases hfound
    split
    · rename_i hok
      cases hok
    · exact .of_keeps (f.hereditary.bind (hr _) fun _ => f.pure _) file k
    · exact .of_keeps (f.hereditary.fail _) file k
  · cases hfound

end

/-- A record that is found by a text has that text for its identifier. -/
theorem find?_of_hasId {r : History.Record} {id : Text}
    (hid : History.hasId (.str id) r = true) : Json.Fields.find? r "id" = some (.str id) := by
  have hsame : ∀ j : Json, j.same (.str id) = true → j = .str id := by
    intro j hj
    cases j <;> simp_all [Json.same, Json.sameLeaf, Json.whole?]
  unfold History.hasId at hid
  cases hf : Json.Fields.find? r "id" with
  | none =>
    rw [hf] at hid
    cases hsame _ hid
  | some j =>
    rw [hf] at hid
    rw [hsame j hid]

theorem replayOf_options {r : History.Record} {copy yes : Bool} {o : Run.Options} {id : Text}
    (hid : History.hasId (.str id) r = true) (ho : Rerun.options r copy yes = .ok o) :
    o.replayOf = .str id := by
  have hneed : (Json.obj r).need "id" = .ok (.str id) := by
    unfold Json.need
    dsimp only
    rw [find?_of_hasId hid]
  unfold Rerun.options at ho
  rw [hneed] at ho
  generalize ((Json.Fields.find? r "args").getD .null |>.orElse (.arr [])).elements = args at ho
  cases args with
  | error m => cases ho
  | ok args =>
    cases ho
    rfl

variable [Runtime]

theorem runs_rerun (id : Text) (copy yes : Bool) (ctx : Context) (dir : Path) (h : Host) :
    Runs (Report.rerun (.str id) copy yes ctx { dir }) ctx.historyFile h := by
  have f := Host.frame_extends Effect.Inner
  have hreport : ∀ line : Text, Keeps (Extends Effect.Inner) (Run.reportError line) :=
    fun _ => f.emit (Effect.inner_of_none rfl)
  refine runs_onDisk (History.find?_keeps f reportTold_inner.skipped _ _) (fun _ => hreport _)
    fun found k hfound => ?_
  cases found with
  | none => exact .of_keeps (f.hereditary.bind (hreport _) fun _ => f.pure _) _ k
  | some r =>
    have hid : History.hasId (.str id) r = true := by
      obtain ⟨records, m, -, hpure⟩ := Job.bind_ok hfound
      exact List.find?_some (Except.ok.inj (Prod.mk.inj hpure).1)
    refine Runs.bind (f.hereditary.check _) fun name n _ => ?_
    refine Runs.bind (f.hereditary.check _) fun o m ho => ?_
    exact Runs.bind (get_extends rfl) fun registry _ _ =>
      runs_perform registry name (.inr ⟨id, replayOf_options hid (Job.check_ok ho)⟩) ctx _

/-- Every command writes to its log alone, or is a run. -/
theorem runs_dispatch (c : Command) (ctx : Context) (dir : Path) (h : Host) :
    Runs (c.dispatch ctx { dir }) ctx.historyFile h := by
  have f := Host.frame_extends Effect.Inner
  have t := reportTold_inner
  cases c with
  | run action args copy yes =>
    exact Runs.bind (get_extends rfl) fun registry k _ => runs_perform registry _ (.inl rfl) ctx k
  | actions =>
    show Runs (Report.actions { dir }) ctx.historyFile h
    rw [Report.actions_eq]
    have hshown : Keeps (Extends Effect.Inner) (Registry.Source.get { dir } >>= fun registry => do
        Report.printActions registry
        return (0 : Int)) :=
      f.hereditary.bind (get_extends rfl) fun r => (Report.printActions_plain r).keeps f t
    exact .of_keeps hshown _ h
  | history limit => exact .of_keeps ((Report.history_plain _ ctx).keeps f t) _ h
  | rerun id copy yes => exact runs_rerun id copy yes ctx dir h
  | status => exact .of_keeps ((Report.status_plain ctx).keeps f t) _ h
  | clipboard => exact .of_keeps ((Report.clipboard_plain ctx).keeps f t) _ h
  | config => exact .of_keeps ((Report.config_plain ctx).keeps f t) _ h
  | logs tail log => exact .of_keeps ((Report.logs_plain _ log ctx).keeps f t) _ h

/-- A command stores one record or none, and ends with 0 if and only if the record says that its run
has succeeded and can be measured. It tells neither of a beginning nor of an end. -/
theorem dispatch_stores (c : Command) (ctx : Context) (dir : Path) (h : Host) :
    Adds Effect.Inner h ((c.dispatch ctx { dir }).result h).2 ∧
    ∃ records, Stores ctx.historyFile records h ((c.dispatch ctx { dir }).result h).2 ∧
      ∀ record ∈ records, ((c.dispatch ctx { dir }).result h).1 = .ok 0 ↔
        Run.Succeeded record ∧ Run.Measured record := by
  obtain hk | ⟨r, w, m, hreplay, hm, hr⟩ := runs_dispatch c ctx dir h
  · exact ⟨hk.adds, [], .nothing hk.logged, fun _ hx => by cases hx⟩
  · obtain ⟨records, hstores, hcode⟩ := Run.conclude_stores hreplay ctx.historyFile w m
    have hadds : Adds Effect.Inner m ((r.conclude ctx.historyFile w).result m).2 :=
      Run.conclude_adds _ w (fun _ => Effect.inner_of_none rfl)
        (fun _ _ => Effect.inner_of_none rfl)
        (fun _ hx => hx.logs.inner (by decide) (by decide))
        (fun _ hx => hx.logs.inner (by decide) (by decide)) m
    rw [hr]
    exact ⟨hm.adds.trans hadds, records, hstores.after hm.logged, hcode⟩

end Command
end ClipActions
