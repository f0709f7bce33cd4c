import ClipActions.Proofs.Job.Keeps
import ClipActions.Registry.Source

/-!
What finding and building a registry leaves behind: warnings without secrets, the events of these
warnings, and the event of the registry.
-/
namespace ClipActions

open Host (Frame)

open Job (Hereditary Keeps)

variable {P : Effect → Prop} {R : Host → Host → Prop} {S : ∀ {α : Type}, Job α → Prop}

/-- What is warned about while a registry is built, and that it is built, may be told of. -/
structure Registry.Told (P : Effect → Prop) : Prop where
  warning : ∀ t, P (.complained ("Warning: " ++ Secret.redact t ++ "\n"))
  event : ∀ {name : Text} {x : Effect}, name ∈ (["plugin_load_failed", "plugin_skipped",
    "plugin_conflict", "registry_built"] : List Text) → x.Tells name Redacted → P x

theorem Registry.told_any : Registry.Told fun _ => True := ⟨fun _ => trivial, fun _ _ => trivial⟩

open Registry (Told)

namespace Plugin

variable [Runtime]

theorem warnRefused_inherits (f : Hereditary P S) (t : Told P) (file : Path) (refusal : Refusal) :
    S (warnRefused file refusal) := by
  cases refusal with
  | halted h =>
    exact f.warn _ (by decide) rfl rfl (t.warning _) fun _ => t.event (by decide)
  | noAction =>
    exact f.warn _ (by decide) rfl rfl (t.warning _) fun _ => t.event (by decide)

theorem loadFiles_inherits (f : Hereditary P S) (hl : ∀ index file, S (loadFile index file))
    (index : Nat) (files : List Path) : S (loadFiles index files) := by
  induction files generalizing index with
  | nil => exact f.pure _
  | cons file files ih =>
    exact f.bind (hl index file) fun _ => f.bind (ih _) fun _ => f.pure _

theorem loadFile_keeps (f : Frame P R) (t : Told P) (index : Nat) (file : Path) :
    Keeps R (loadFile index file) := by
  refine Frame.get fun h => ?_
  split
  · exact f.throw _ h
  · exact f.pure _ h
  · exact f.hereditary.bind (warnRefused_inherits f.hereditary t file _) (fun _ => f.pure _) h

theorem loadDirectory_keeps (f : Frame P R) (t : Told P) (dir : Path) :
    Keeps R (loadDirectory dir) := by
  have g := f.hereditary
  unfold loadDirectory
  refine Frame.get fun h => ?_
  refine g.bind (g.take _) (fun there => ?_) h
  split
  · exact g.pure _
  split
  · exact loadFiles_inherits g (loadFile_keeps f t) _ _
  · exact g.bind (g.warn _ (by decide) rfl rfl (t.warning _) fun _ => t.event (by decide)) fun _ =>
      g.pure _

end Plugin

namespace Registry

variable [Runtime]

theorem merge_inherits (f : Hereditary P S) (t : Told P) (kept plugins : List Action) :
    S (merge kept plugins) := by
  refine f.bind (f.forM (fun v => ?_) _) fun _ => f.pure _
  exact f.warn _ (by decide) rfl rfl (t.warning _) fun _ => t.event (by decide)

theorem construct_inherits (f : Hereditary P S) (actions : List Action) : S (construct actions) := by
  unfold construct
  split
  · exact f.pure _
  · exact f.fail _

variable {s : Source}

/-- Once the plugins are loaded, a registry is built of them with warnings and one event. -/
theorem build_inherits (f : Hereditary P S) (t : Told P) (hl : S (s.load s.dir)) : S s.build := by
  have hbuilt : ∀ x : Effect, x.Notes "registry_built" → P x :=
    fun x hx => t.event (by decide) (hx.mono fun _ => False.elim)
  refine f.bind hl fun plugins => f.bind (merge_inherits f t _ plugins) fun joined =>
    f.bind (construct_inherits f _) fun r => f.bind ?_ fun _ => f.pure r
  exact f.tell (.of_names rfl) (Log.Event.silent_of_names rfl) hbuilt

/-- That the registry stays with the process is no effect of its own. -/
theorem get_keeps (f : Frame P R) (t : Told P) (hr : ∀ h r, R h { h with registry := some r })
    (hs : s.load = Plugin.loadDirectory) : Keeps R s.get := by
  have g := f.hereditary
  have hbuild : Keeps R s.build := build_inherits g t (by
    rw [hs]
    exact Plugin.loadDirectory_keeps f t s.dir)
  refine Frame.get fun h => ?_
  split
  · exact g.pure _ h
  · refine g.bind hbuild (fun r => ?_) h
    exact g.bind (fun k => hr k r) fun _ => g.pure r

end Registry
end ClipActions
