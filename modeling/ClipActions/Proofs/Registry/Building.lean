import ClipActions.Proofs.Log.Delivery
import ClipActions.Proofs.Registry.Merge
import ClipActions.Registry.Source
import Mathlib.Data.List.Forall2

/-!
The registry of a process. Whatever plugin actions are found, building it succeeds: what clashes is
left out and warned about, so nothing is left that the strict construction would refuse.
-/
namespace ClipActions.Registry

section

variable [Runtime]

variable {s t : Source} {host h k : Host} {plugins more : List Action} {r : Registry}
  {v : Verdict} {vs : List Verdict}

/-- What is said of an action that is left out. -/
def Verdict.warning (v : Verdict) : Text :=
  "Skipping plugin action \"" ++ v.action.id ++ "\": name conflict with " ++
    Text.joinWith ", " (v.conflicts.map fun name => Symbol.char '"' :: name ++ [.char '"'])

/-- What the log has of an action that is left out. -/
def Verdict.event (v : Verdict) : Log.Event :=
  { name := "plugin_conflict", level := Log.Level.warning
    fields := [
      ("message", .str (Secret.redact v.warning)), ("action", .str v.action.id),
      ("conflicts", .list (v.conflicts.map .str))] }

/-- One warning to the user, and its event. -/
def Verdict.Told (now : Instant) (v : Verdict) (es : List Effect) : Prop :=
  ∃ target, es = [
    .complained ("Warning: " ++ Secret.redact v.warning ++ "\n"),
    .logged target Log.Level.warning (v.event.record now)]

/-- What the log has of a registry of built-in actions and of those that join them. -/
def builtEvent (s : Source) (plugins joined : Nat) : Log.Event :=
  { name := "registry_built"
    fields := [
      ("builtin_count", .int s.builtin.length), ("plugin_count", .int joined),
      ("rejected_count", .int (plugins - joined : Nat)), ("plugin_dir", .path s.dir)] }

theorem Verdict.shallow_event (v : Verdict) : v.event.Shallow := by
  intro f hf
  rcases List.mem_cons.1 hf with rfl | hf
  · exact Nat.zero_le _
  rcases List.mem_cons.1 hf with rfl | hf
  · exact Nat.zero_le _
  · obtain rfl := List.mem_singleton.1 hf
    exact Nat.le_trans (Log.nesting_texts v.conflicts) Runtime.logDepth_pos

theorem shallow_builtEvent (s : Source) (plugins joined : Nat) :
    (builtEvent s plugins joined).Shallow := .of_nestings rfl

theorem result_warnConflict (v : Verdict) (h : Host) : ∃ es disk target, v.Told h.now es ∧
    (warnConflict v).result h = (.ok (), { h with disk, target, trace := h.trace ++ es }) := by
  obtain ⟨disk, target, hwarn⟩ := Job.result_warn v.shallow_event h
  exact ⟨_, disk, target, ⟨h.target, rfl⟩, hwarn⟩

/-- Each action that is left out is told of once, in turn. -/
theorem result_warnConflicts (vs : List Verdict) (h : Host) : ∃ told disk target,
    List.Forall₂ (Verdict.Told h.now) vs told ∧ (vs.forM warnConflict).result h =
      (.ok (), { h with disk, target, trace := h.trace ++ told.flatten }) := by
  induction vs generalizing h with
  | nil => exact ⟨[], h.disk, h.target, .nil, by simp [List.forM_eq_forM]⟩
  | cons v vs ih =>
    obtain ⟨es, disk, target, hv, hfirst⟩ := result_warnConflict v h
    obtain ⟨told, disk', target', hvs, hrest⟩ :=
      ih { h with disk, target, trace := h.trace ++ es }
    refine ⟨es :: told, disk', target', .cons hv hvs, ?_⟩
    rw [List.forM_eq_forM, List.forM_cons, Job.result_bind_ok hfirst, ← List.forM_eq_forM, hrest,
      List.flatten_cons, List.append_assoc]

theorem result_build (hs : Apart s.builtin) (hl : (s.load s.dir).result host = (.ok plugins, h)) :
    ∃ told target disk target',
      List.Forall₂ (Verdict.Told h.now)
        ((verdicts s.builtin plugins).filter (!·.accepted)) told ∧
      s.build.result host = (.ok ⟨s.builtin ++ joining (verdicts s.builtin plugins)⟩,
        { h with
          disk, target := target'
          trace := h.trace ++ told.flatten ++ [.logged target Log.Level.info
            ((builtEvent s plugins.length
              (joining (verdicts s.builtin plugins)).length).record h.now)] }) := by
  obtain ⟨told, disk, target, htold, hwarned⟩ :=
    result_warnConflicts ((verdicts s.builtin plugins).filter (!·.accepted)) h
  have hmerged : (merge s.builtin plugins).result h =
      (.ok (joining (verdicts s.builtin plugins)),
        { h with disk, target, trace := h.trace ++ told.flatten }) := by
    unfold merge
    rw [Job.result_bind_ok hwarned]
    rfl
  have hmade := create_eq_ok.2 ⟨apart_joining hs plugins, rfl⟩
  obtain ⟨disk', target', hlog⟩ := Job.result_log_ok
    (shallow_builtEvent s plugins.length (joining (verdicts s.builtin plugins)).length)
    { h with disk, target, trace := h.trace ++ told.flatten }
  refine ⟨told, target, disk', target', htold, ?_⟩
  unfold Source.build
  rw [Job.result_bind_ok hl, Job.result_bind_ok hmerged, construct, hmade]
  show (Job.log (builtEvent s plugins.length _) >>= fun _ => pure _).result _ = _
  rw [Job.result_bind_ok hlog]
  rfl

/-- Once there is a registry, it stays, and nothing is found or told again. -/
theorem result_get_of_some (hr : host.registry = some r) (s : Source) :
    s.get.result host = (.ok r, host) := by
  unfold Source.get
  rw [Job.result_bind_ok (Job.result_get host), hr]
  rfl

theorem result_get_of_none (hr : host.registry = none)
    (hb : s.build.result host = (.ok r, k)) :
    s.get.result host = (.ok r, { k with registry := some r }) := by
  unfold Source.get
  rw [Job.result_bind_ok (Job.result_get host), hr]
  dsimp only
  rw [Job.result_bind_ok hb]
  rfl

/-- Whatever plugin actions are found, built-in actions that a registry can be made of get one with
all plugin actions that may join them. Each of the others is told of once, and nothing is told once
the registry is there. Plugin actions that are found behind the others change no name. -/
theorem get_merges {strict : Registry} (hs : create s.builtin = .ok strict)
    (hl : (s.load s.dir).result host = (.ok plugins, h)) (hn : host.registry = none) :
    ∃ r vs told target final,
      s.get.result host = (.ok r, final) ∧ Merged s.builtin plugins vs r ∧
      List.Forall₂ (Verdict.Told h.now) (vs.filter (!·.accepted)) told ∧
      final.trace = h.trace ++ told.flatten ++ [.logged target Log.Level.info
        ((builtEvent s plugins.length (joining vs).length).record h.now)] ∧
      (∀ (t : Source) host' h' more, t.builtin = s.builtin → host'.registry = none →
        (t.load t.dir).result host' = (.ok (plugins ++ more), h') →
        ∃ r' final', t.get.result host' = (.ok r', final') ∧
          ∀ name a, r.resolve name = some a → r'.resolve name = some a) ∧
      final.registry = some r ∧
      ∀ (t : Source) k, k.registry = some r → t.get.result k = (.ok r, k) := by
  obtain ⟨hapart, -⟩ := create_eq_ok.1 hs
  obtain ⟨told, target, disk, target', htold, hbuilt⟩ := result_build hapart hl
  have hmerged := merged_verdicts hapart plugins
  refine ⟨_, _, told, target, _, result_get_of_none hn hbuilt, hmerged, htold, rfl, ?_, rfl,
    fun t k hk => result_get_of_some hk t⟩
  intro t host' h' more ht hn' hl'
  have hapart' : Apart t.builtin := ht ▸ hapart
  obtain ⟨_, _, _, _, _, hbuilt'⟩ := result_build hapart' hl'
  refine ⟨_, _, result_get_of_none hn' hbuilt', fun name a ha => ?_⟩
  obtain ⟨hmem, hname⟩ := (hmerged.resolves name a).1 ha
  obtain ⟨joined, hj⟩ := joining_verdicts_append s.builtin plugins more
  refine (resolve_eq_some (apart_joining hapart' _)).2 ⟨?_, hname⟩
  rw [ht, hj, ← List.append_assoc]
  exact List.mem_append_left _ hmem

def idle (id : Text) (aliases : List Text) : Action where
  id
  aliases
  description := []
  title := []
  run task := .done task.text

/-- A directory with two plugin actions that share a name. -/
def clashing : Source where
  dir := "actions"
  load _ := pure [idle "up" ["shout"], idle "loud" ["shout", "boom"]]

end

/-- The second of two plugin actions that share a name is left out with all its names. -/
theorem get_merges_clashing : ∃ r final,
    clashing.get.result { now := ⟨0⟩ } = (.ok r, final) ∧
    r.resolve "shout" = some (idle "up" ["shout"]) ∧ r.resolve "boom" = none := by
  have hcreate : create clashing.builtin = .ok ⟨clashing.builtin⟩ :=
    create_eq_ok.2 ⟨by decide, rfl⟩
  have hload : (clashing.load clashing.dir).result { now := ⟨0⟩ } =
      (.ok [idle "up" ["shout"], idle "loud" ["shout", "boom"]], { now := ⟨0⟩ }) := rfl
  obtain ⟨r, vs, _, _, final, hget, hmerged, -⟩ := get_merges hcreate hload rfl
  obtain ⟨v, ws, rfl, hv, hws⟩ := List.map_eq_cons_iff.1 hmerged.judged.actions
  obtain ⟨w, xs, rfl, hw, hxs⟩ := List.map_eq_cons_iff.1 hws
  obtain rfl := List.map_eq_nil_iff.1 hxs
  have hfirst : v.accepted = true := by
    rw [hmerged.judged.included [] v [w] rfl, hv]
    decide
  have hsecond : w.accepted = false := by
    rw [Bool.eq_false_iff]
    intro h
    have hfresh := (hmerged.judged.included [v] w [] rfl).1 h
    simp only [joining_cons, hfirst, hv, hw] at hfresh
    exact absurd hfresh (by decide)
  have hactions : r.actions = clashing.builtin ++ [idle "up" ["shout"]] := by
    rw [hmerged.actions, joining_cons, joining_cons, hfirst, hsecond, hv]
    rfl
  refine ⟨r, final, hget, (hmerged.resolves _ _).2 ⟨?_, by decide⟩, (hmerged.unresolved _).2 ?_⟩
  · rw [hactions]
    exact List.mem_append_right _ List.mem_cons_self
  · rw [hactions]
    decide

end ClipActions.Registry
