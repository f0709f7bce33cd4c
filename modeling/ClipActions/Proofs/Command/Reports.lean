import ClipActions.Command.Report
import ClipActions.Proofs.Agent.Requests
import ClipActions.Proofs.History.Reading
import ClipActions.Proofs.Job.Accounts

/-!
What the commands that report leave behind: what they ask of the agent, what they print, one error,
and an event for each line of the history that they pass over. They fail but are never interrupted,
and if they end with an exit code they have reported one error or none as it says.
-/
namespace ClipActions

open Host (Adds Frame)

open Job (Accounts Halts Hereditary Keeps)

variable {P : Effect → Prop} {R : Host → Host → Prop}

/-- What a report prints, asks and passes over may be told of. -/
structure Report.Told (P : Effect → Prop) : Prop where
  printed : ∀ t, P (.printed t)
  error : ∀ t, P (.complained ("Error: " ++ t ++ "\n"))
  agent : Agent.Told P
  skipped : ∀ x : Effect, x.Logs "history_line_skipped" → P x

open Report (Told)

namespace Job

theorem readText_keeps (f : Frame P R) (p : Path) : Keeps R (readText p) :=
  Frame.get fun h => f.hereditary.bind (f.hereditary.take _) (fun _ => f.pure _) h

theorem somethingAt_keeps (f : Frame P R) (p : Path) : Keeps R (somethingAt p) :=
  Frame.get fun h => f.hereditary.bind (f.hereditary.take _) (fun _ => f.pure _) h

theorem readText_halts (p : Path) : Halts Agent.IsFailure (readText p) :=
  .get fun h => (Halts.take fun f _ => Agent.isFailure f).bind (fun _ => .pure _) h

theorem somethingAt_halts (p : Path) : Halts Agent.IsFailure (somethingAt p) :=
  .get fun h => (Halts.take fun f _ => Agent.isFailure f).bind (fun _ => .pure _) h

end Job

namespace History

variable [Runtime]

theorem read_keeps (f : Frame P R) (hs : ∀ x : Effect, x.Logs "history_line_skipped" → P x)
    (limit : Json) (file : Path) : Keeps R (read limit file) :=
  read_inherits f.hereditary (Job.somethingAt_keeps f file) (Job.readText_keeps f file) hs limit

theorem find?_keeps (f : Frame P R) (hs : ∀ x : Effect, x.Logs "history_line_skipped" → P x)
    (id : Json) (file : Path) : Keeps R (find? id file) :=
  find?_inherits f.hereditary (Job.somethingAt_keeps f file) (Job.readText_keeps f file) hs id

/-- Reading the history is never interrupted. -/
theorem read_halts (limit : Json) (file : Path) : Halts Agent.IsFailure (read limit file) := by
  have hpass : ∀ found, Halts Agent.IsFailure (passOver file found) := by
    intro found
    unfold passOver
    split
    · exact .fail (Agent.isFailure _)
    · exact Job.log_halts (.of_nestings rfl) _
  have hall : Halts Agent.IsFailure (readAll file) :=
    (Job.readText_halts file).bind fun _ => (Halts.forM hpass _).bind fun _ => .pure _
  refine (Job.somethingAt_halts file).bind fun there => ?_
  split
  · exact hall.bind fun _ => (Halts.check fun _ => Agent.isFailure _).bind fun _ => .pure _
  · exact .pure _

end History

namespace Report

section

variable [Runtime]

/-- A job that does nothing but print, and may fail at a value that does not fit. -/
structure Prints (job : Job Unit) : Prop where
  inherits : ∀ {P : Effect → Prop} {S : ∀ {α : Type}, Job α → Prop}, Hereditary P S →
    (∀ t, P (.printed t)) → S job
  halts : Halts Agent.IsFailure job

end

namespace Prints

variable [Runtime]

theorem say (line : Text) : Prints (Job.say line) := 
  ⟨fun f hp => f.say (hp _), .say fun _ => Agent.isFailure _⟩

theorem check {α : Type} {c : Checked α} {print : α → Job Unit} (hp : ∀ a, Prints (print a)) :
    Prints (Job.check c >>= print) :=
  ⟨fun f ht => f.bind (f.check c) fun a => (hp a).inherits f ht,
    (Halts.check fun _ => Agent.isFailure _).bind fun a => (hp a).halts⟩

theorem next {x y : Job Unit} (hx : Prints x) (hy : Prints y) : Prints (x >>= fun _ => y) :=
  ⟨fun f ht => f.bind (hx.inherits f ht) fun _ => hy.inherits f ht,
    hx.halts.bind fun _ => hy.halts⟩

theorem forM {α : Type} {print : α → Job Unit} (hp : ∀ a, Prints (print a)) (as : List α) :
    Prints (as.forM print) :=
  ⟨fun f ht => f.forM (fun a => (hp a).inherits f ht) as, .forM (fun a => (hp a).halts) as⟩

end Prints

section

variable [Runtime]

theorem sayField_prints (label : Text) (j : Json) (name unit : Text) :
    Prints (sayField label j name unit) := .check fun _ => .say _

theorem sayPresent_prints (label : Text) (j : Json) (name otherwise : Text) :
    Prints (sayPresent label j name otherwise) := .check fun _ => .say _

theorem sayFlag_prints (label : Text) (j : Json) (name : Text) : Prints (sayFlag label j name) :=
  .check fun _ => .say _

theorem block_prints {j : Json} {name : Text} {print : Json → Job Unit}
    (hp : ∀ block, Prints (print block)) : Prints (block j name >>= print) := by
  unfold block
  rw [bind_assoc]
  exact .check fun v => by rw [pure_bind]; exact hp _

theorem printStatus_prints (status : Json) : Prints (printStatus status) := by
  refine block_prints fun clipboard => .next (.say _) (.next (.say _) ?_)
  refine .next (sayField_prints _ _ _ _) (.next (sayField_prints _ _ _ _)
    (.next (sayField_prints _ _ _ _) (.next (.say _) (.next (.say _) ?_))))
  exact .next (sayField_prints _ _ _ _) (.next (sayPresent_prints _ _ _ _)
    (sayPresent_prints _ _ _ _))

theorem printClipboard_prints (clipboard : Json) : Prints (printClipboard clipboard) := by
  refine .next (sayField_prints _ _ _ _) (.next (sayField_prints _ _ _ _)
    (.next (sayField_prints _ _ _ _) ?_))
  exact .next (.say _) (.next (.say _) (.next (.say _) (sayPresent_prints _ _ _ _)))

theorem printConfig_prints (config : Json) : Prints (printConfig config) := by
  have htrigger : ∀ found : Text × Json, Prints (printTrigger found.1 found.2) :=
    fun _ => .check fun _ => sayField_prints _ _ _ _
  refine block_prints fun provider => block_prints fun settings => block_prints fun actions => ?_
  refine .next (.say _) (.next (.say _) (.next (.say _) (.next (.say _) ?_)))
  refine .next (sayField_prints _ _ _ _) (.next (sayField_prints _ _ _ _)
    (.next (sayField_prints _ _ _ _) (.next (.say _) (.next (.say _) ?_))))
  refine .next (sayField_prints _ _ _ _) (.next (sayFlag_prints _ _ _)
    (.next (sayFlag_prints _ _ _) (.next (sayField_prints _ _ _ _) ?_)))
  exact .next (.say _) (.next (.say _) (.check fun _ => .forM htrigger _))

end

/-- A command that reports: it leaves behind what reports do, it is never interrupted, and its exit
code tells whether it has reported an error. -/
structure Plain (job : Job Int) : Prop where
  keeps : ∀ {P : Effect → Prop} {R : Host → Host → Prop}, Frame P R → Told P → Keeps R job
  halts : Halts Agent.IsFailure job
  accounts : Accounts job

namespace Plain

variable {α : Type}

section

variable [Runtime]

/-- What is printed before an end without an error. -/
theorem prints {print : Job Unit} (hp : Prints print) : Plain (do print; return 0) where
  keeps f t := f.hereditary.bind (hp.inherits f.hereditary t.printed) fun _ => f.pure 0
  halts := hp.halts.bind fun _ => .pure 0
  accounts := .bind (hp.inherits (Host.frame_adds _).hereditary fun _ => rfl) fun _ => .succeed

end

theorem report (line : Text) : Plain (do Run.reportError line; return 1) where
  keeps f t := f.hereditary.bind (f.emit (t.error line)) fun _ => f.pure 1
  halts := (Halts.emit _).bind fun _ => .pure 1
  accounts := .report line

theorem fail (e : Failure) : Plain (Job.fail e) where
  keeps f _ := f.hereditary.fail e
  halts := .fail (Agent.isFailure e)
  accounts := .fail e

/-- What is tried first reports no error. -/
theorem attempt {x : Job α} {next : Except Failure α → Job Int}
    (hk : ∀ {P : Effect → Prop} {R : Host → Host → Prop}, Frame P R → Agent.Told P →
      (∀ y : Effect, y.Logs "history_line_skipped" → P y) → Keeps R x)
    (hh : Halts Agent.IsFailure x) (hn : ∀ found, Plain (next found)) :
    Plain (Job.attempt x >>= next) where
  keeps f t := f.hereditary.bind (f.hereditary.attempt (hk f t.agent t.skipped)) fun found =>
    (hn found).keeps f t
  halts := (Halts.attempt hh).bind fun found => (hn found).halts
  accounts := .bind ((Host.frame_adds _).hereditary.attempt (hk (Host.frame_adds _)
    ⟨fun _ _ _ => rfl, fun _ hx => hx.errorless⟩ fun _ hx => hx.errorless))
    fun found => (hn found).accounts

end Plain

section

variable [Runtime]

theorem onAgent_plain {path : Text} {ctx : Context} {print : Json → Job Unit}
    (hp : ∀ reply, Prints (print reply)) :
    Plain (onAgent (Agent.request ctx.socket "GET" path) print) := by
  refine .attempt (fun f t _ => Agent.request_keeps f (t.of _ _ _)) Agent.request_halts
    fun answer => ?_
  cases answer with
  | ok reply => exact .prints (hp reply)
  | error e =>
    dsimp only
    split
    · exact .fail e
    · exact .report _

end

theorem onDisk_plain {α : Type} {job : Job α} {next : α → Job Int}
    (hk : ∀ {P : Effect → Prop} {R : Host → Host → Prop}, Frame P R → Agent.Told P →
      (∀ y : Effect, y.Logs "history_line_skipped" → P y) → Keeps R job)
    (hh : Halts Agent.IsFailure job) (hn : ∀ a, Plain (next a)) :
    Plain (onDisk job reportFault next) := by
  refine .attempt hk hh fun found => ?_
  split
  · exact hn _
  · exact .report _
  · exact .fail _

variable [Runtime]

theorem status_plain (ctx : Context) : Plain (status ctx) := onAgent_plain printStatus_prints

theorem clipboard_plain (ctx : Context) : Plain (clipboard ctx) :=
  onAgent_plain printClipboard_prints

theorem config_plain (ctx : Context) : Plain (config ctx) := onAgent_plain printConfig_prints

theorem history_plain (limit : Json) (ctx : Context) : Plain (history limit ctx) := by
  refine onDisk_plain (fun f _ hs => History.read_keeps f hs _ _) (History.read_halts _ _)
    fun records => ?_
  split
  · exact .prints (.say _)
  · have hprints := Prints.next (.say "Recent action runs") (.next (.say "──────────────────")
      (.forM (fun r => .say (recordLine r)) records))
    simpa only [bind_assoc] using Plain.prints hprints

theorem logs_plain (tail : Data) (log : AgentLog) (ctx : Context) : Plain (logs tail log ctx) := by
  have hkeeps : ∀ {P : Effect → Prop} {R : Host → Host → Prop}, Frame P R →
      Keeps R (log.tail tail ctx) := by
    intro P R f
    unfold AgentLog.tail
    split
    · exact f.hereditary.fail _
    · exact f.hereditary.map _ (Job.readText_keeps f _)
  have hhalts : Halts Agent.IsFailure (log.tail tail ctx) := by
    unfold AgentLog.tail
    split
    · exact .fail (Agent.isFailure _)
    · exact Halts.map _ (Job.readText_halts _)
  refine .attempt (fun f _ _ => hkeeps f) hhalts fun found => ?_
  split
  · dsimp only
    split
    · exact .prints (.say _)
    · exact .prints (.forM (fun line => .say line) _)
  · exact .report _
  · exact .report _
  · exact .report _
  · exact .report _
  · exact .fail _

def printActions (registry : Registry) : Job Unit := do
  Job.say "Available actions"
  Job.say "─────────────────"
  registry.ids.forM fun id =>
    (registry.actions.filter (·.id = id)).forM fun a => Job.say (actionLine a)

theorem actions_eq (source : Registry.Source) :
    actions source = source.get >>= fun registry => do printActions registry; return 0 := by
  simp only [printActions, bind_assoc]
  rfl

theorem printActions_plain (registry : Registry) :
    Plain (do printActions registry; return 0) :=
  .prints (.next (.say _) (.next (.say _) (.forM (fun _ => .forM (fun _ => .say _) _) _)))

end Report
end ClipActions
