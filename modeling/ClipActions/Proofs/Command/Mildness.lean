import ClipActions.Command.Invocation
import ClipActions.Proofs.Command.Reports
import ClipActions.Proofs.Registry.Merge
import ClipActions.Proofs.Run.Mildness

/-! Commands on mild hosts halt mildly: what a registry is built from is mild there. -/
namespace ClipActions

open Job (Any Mild MildAt)

namespace Plugin

def AllMild (actions : List Action) : Prop := ∀ a ∈ actions, a.Mild

section

variable [Runtime]

theorem warnRefused_mild (file : Path) (refusal : Refusal) :
    Mild Any (warnRefused file refusal) := by
  cases refusal with
  | halted e => exact .warn _ _ _
  | noAction => exact .warn _ _ _

end

theorem judge_mild {e : Export} (he : e.Mild) :
    MildEnd (judge e) ∧ ∀ a, judge e = .ok (.ok a) → a.Mild := by
  unfold judge
  split
  · exact ⟨.ok _, fun a ha => by cases ha⟩
  · exact ⟨.ok _, fun a ha => by cases ha⟩
  · rename_i halt _ _ hh
    exact ⟨.error (he.halt halt hh), fun a ha => by cases ha⟩
  · split
    · rename_i a ha
      refine ⟨.ok _, fun b hb => ?_⟩
      cases hb
      exact he.action a ha
    · exact ⟨.ok _, fun a ha => by cases ha⟩

variable [Runtime]

theorem loadFile_mild (index : Nat) (file : Path) :
    Mild (fun found => ∀ a, found = some a → a.Mild) (loadFile index file) := by
  refine .get fun h hm => ?_
  obtain ⟨hend, haction⟩ := judge_mild (hm.loading (moduleName index file) file)
  split
  · rename_i e he
    exact Mild.throw (hend e he) h hm
  · rename_i a ha
    refine Mild.pure (fun b hb => ?_) h hm
    cases hb
    exact haction a ha
  · exact ((warnRefused_mild file _).bind fun _ _ => .pure fun a ha => by cases ha) h hm

theorem loadFiles_mild (index : Nat) (files : List Path) :
    Mild AllMild (loadFiles index files) := by
  induction files generalizing index with
  | nil => exact .pure fun a ha => by cases ha
  | cons file files ih =>
    refine (loadFile_mild index file).bind fun first hfirst => (ih _).bind fun rest hrest =>
      .pure fun a ha => ?_
    rcases List.mem_append.1 ha with ha | ha
    · exact hfirst a (Option.mem_toList.1 ha)
    · exact hrest a ha

theorem loadDirectory_mild (dir : Path) : Mild AllMild (loadDirectory dir) := by
  refine .get fun h hm => (Mild.take _).bind (fun there _ => ?_) h hm
  split
  · exact .pure fun a ha => by cases ha
  split
  · exact loadFiles_mild _ _
  · exact (Mild.warn _ _ _).bind fun _ _ => .pure fun a ha => by cases ha

end Plugin

namespace Registry

open Plugin (AllMild)

variable [Runtime]

theorem merge_mild {kept plugins : List Action} (hp : AllMild plugins) :
    Mild AllMild (merge kept plugins) := by
  refine (Mild.forM (fun v => Mild.warn _ _ _) _).bind fun _ _ => .pure fun a ha => ?_
  obtain ⟨v, hv, rfl⟩ := List.mem_map.1 ha
  refine hp _ ?_
  rw [← map_action_judge (kept.flatMap (·.names)) plugins]
  exact List.mem_map_of_mem (List.mem_filter.1 hv).1

/-- A registry of mild actions, where those that are always there are mild. -/
theorem get_mild {s : Source} (hb : AllMild s.builtin) (hs : s.load = Plugin.loadDirectory) :
    Mild (fun r => AllMild r.actions) s.get := by
  have hload : Mild AllMild (s.load s.dir) := by
    rw [hs]
    exact Plugin.loadDirectory_mild s.dir
  have hbuild : Mild (fun r => AllMild r.actions) s.build := by
    refine hload.bind fun plugins hp => (merge_mild hp).bind fun joined hj => ?_
    refine Mild.bind (Q := fun r : Registry => AllMild r.actions) ?_ fun r hr =>
      (Mild.log _).bind fun _ _ => .pure hr
    unfold construct
    split
    · rename_i r hr
      obtain ⟨-, rfl⟩ := create_eq_ok.1 hr
      refine .pure fun a ha => ?_
      rcases List.mem_append.1 ha with ha | ha
      · exact hb a ha
      · exact hj a ha
    · exact .fail _
  refine .get fun h hm => ?_
  split
  · rename_i r hr
    exact Mild.pure (hm.registry r hr) h hm
  · refine hbuild.bind (fun r hr => ?_) h hm
    have hset : Mild Any (modify fun host => { host with registry := some r } : Job Unit) :=
      fun k hk => ⟨⟨hk.service, hk.silence, hk.opening, hk.copying, hk.loading,
        fun r' hr' => by cases hr'; exact hr⟩, .ok _, fun _ _ => trivial⟩
    exact hset.bind fun _ _ => .pure hr

end Registry

/-- A report is mild, for it is never interrupted. -/
theorem Report.Plain.mild {job : Job Int} (hp : Report.Plain job) : Mild Any job :=
  .of_halts (hp.keeps (Host.frame_mild fun _ => True) ⟨fun _ => trivial, fun _ => trivial,
    ⟨fun _ _ _ => trivial, fun _ _ => trivial⟩, fun _ _ => trivial⟩)
    fun h e he => (hp.halts h e he).mild

namespace Command

variable [Runtime]

theorem rerun_mild {source : Registry.Source}
    (hs : Mild (fun r => Plugin.AllMild r.actions) source.get) (id : Json) (copy yes : Bool)
    (ctx : Context) : Mild Any (Report.rerun id copy yes ctx source) := by
  have hread : Mild Any (History.read .null ctx.historyFile) :=
    .of_halts (History.read_keeps (Host.frame_mild fun _ => True) (fun _ _ => trivial) _ _)
      fun h e he => (History.read_halts _ _ h e he).mild
  have hfind : Mild Any (History.find? id ctx.historyFile) := hread.bind fun _ _ => .pure trivial
  refine hfind.attempt.bind fun found _ => ?_
  split
  · dsimp only
    split
    · exact (Mild.check _).bind fun name _ => (Mild.check _).bind fun o _ =>
        hs.bind fun registry hr => Run.perform_mild hr Gate.askTerminal_mild _ _ _
    · exact (Mild.emit _).bind fun _ _ => .pure trivial
  · exact (Mild.emit _).bind fun _ _ => .pure trivial
  · exact .fail _

/-- On a mild host every command halts mildly. -/
theorem dispatch_mild (c : Command) (ctx : Context) (dir : Path) :
    Mild Any (c.dispatch ctx { dir }) := by
  have hget : Mild (fun r => Plugin.AllMild r.actions) (Registry.Source.get { dir }) :=
    Registry.get_mild Action.builtins_mild rfl
  cases c with
  | run action args copy yes =>
    exact hget.bind fun registry hr => Run.perform_mild hr Gate.askTerminal_mild _ _ _
  | actions =>
    show Mild Any (Report.actions { dir })
    rw [Report.actions_eq]
    exact hget.bind fun r _ => (Report.printActions_plain r).mild
  | history limit => exact (Report.history_plain _ ctx).mild
  | rerun id copy yes => exact rerun_mild hget _ copy yes ctx
  | status => exact (Report.status_plain ctx).mild
  | clipboard => exact (Report.clipboard_plain ctx).mild
  | config => exact (Report.config_plain ctx).mild
  | logs tail log => exact (Report.logs_plain _ log ctx).mild

end Command
end ClipActions
