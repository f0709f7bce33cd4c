import ClipActions.Proofs.Run.Course

/-!
How a run ends that is under way: it is held at the gate, no client is made for it, its work stops,
its output cannot be delivered, or it is delivered.
-/
namespace ClipActions

open Job (Keeps)

namespace Host

variable {h k : Host}

/-- Any two readings of the timer are a whole number of milliseconds apart. -/
def Measurable (h : Host) : Prop :=
  ∀ s ∈ Double.zero false :: h.timer, ∀ t ∈ Double.zero false :: h.timer,
    ∃ ms, (Job.elapsed s t).round = .ok ms

theorem Measurable.of_suffix (hm : h.Measurable) (hk : k.timer <:+ h.timer) : k.Measurable :=
  fun s hs t ht => hm s (List.cons_subset_cons _ hk.subset hs) t
    (List.cons_subset_cons _ hk.subset ht)

/-- A timer that has no readings to come gives zero. -/
theorem measurable_of_nil (ht : h.timer = []) : h.Measurable := by
  have hzero : (Job.elapsed (.zero false) (.zero false)).round.toOption = some 0 := by
    decide +kernel
  intro s hs t ht'
  rw [ht, List.mem_singleton] at hs ht'
  rw [hs, ht']
  cases hr : (Job.elapsed (.zero false) (.zero false)).round with
  | error u =>
    rw [hr] at hzero
    cases hzero
  | ok ms => exact ⟨ms, rfl⟩

end Host

namespace Job

variable {h k : Host}

theorem result_since (hm : h.Measurable) {start : Double}
    (hs : start ∈ Double.zero false :: h.timer) (hk : k.timer <:+ h.timer) :
    ∃ ms timer, timer <:+ k.timer ∧ (since start).result k = (.ok ms, { k with timer }) := by
  obtain ⟨t, ht, timer, hsuffix, hr⟩ := result_readTimer k
  obtain ⟨ms, hms⟩ := hm start hs t (List.cons_subset_cons _ hk.subset ht)
  refine ⟨ms, timer, hsuffix, ?_⟩
  unfold since
  rw [result_bind_ok hr, hms]
  rfl

end Job

namespace Run

open Host (Frame Extends Measurable)

variable {P : Effect → Prop} {R : Host → Host → Prop} {r : Run} {daemon : Bool} {ask : Gate.Asker}
  {h k m : Host} {w : Work}

variable [Runtime]

/-- The work of a run is done, behind the gate and with a client. -/
def Worked (r : Run) (daemon : Bool) (ask : Gate.Asker) (h : Host) (w : Work) (m : Host) : Prop :=
  ∃ k c n, (Gate.pass r.config (r.request daemon ask)).result h = (.ok (), k) ∧
    r.prepare.result k = (.ok c, n) ∧ (r.work c).result n = (.ok w, m)

/-- What a run comes to that is under way on a host `h`, and the host that it leaves to be kept. -/
inductive Ends (r : Run) (daemon : Bool) (ask : Gate.Asker) (h : Host) : Work → Host → Prop where
  | held {e k} (hg : (Gate.pass r.config (r.request daemon ask)).result h = (.error e, k)) :
    Ends r daemon ask h { ending := .error e } k
  | unready {e k m} (hg : (Gate.pass r.config (r.request daemon ask)).result h = (.ok (), k))
    (hc : r.prepare.result k = (.error e, m)) : Ends r daemon ask h { ending := .error e } m
  | stopped {w e m} (hw : r.Worked daemon ask h w m) (he : w.ending = .error e) :
    Ends r daemon ask h w m
  | undelivered {w output e m n} (hw : r.Worked daemon ask h w m) (ho : w.ending = .ok output)
    (hd : (r.deliver output).result m = (.error e, n)) :
    Ends r daemon ask h { w with ending := .error e } n
  | delivered {w output m n} (hw : r.Worked daemon ask h w m) (ho : w.ending = .ok output)
    (hd : (r.deliver output).result m = (.ok (), n)) : Ends r daemon ask h w n

theorem Worked.result (hw : r.Worked daemon ask h w m) :
    (r.proceed daemon ask).result h = (r.settleWork (.ok w)).result m := by
  obtain ⟨k, c, n, hg, hc, hw⟩ := hw
  have hwork : (r.prepare >>= r.work).result k = (.ok w, m) := by
    rw [Job.result_bind_ok hc, hw]
  rw [result_proceed, hg]
  dsimp only
  unfold afterGate
  rw [Job.result_bind_ok (Job.result_settle _ k), hwork]

theorem Ends.result (he : r.Ends daemon ask h w k) :
    (r.proceed daemon ask).result h = (.ok w, k) := by
  cases he with
  | held hg => rw [result_proceed, hg]
  | unready hg hc =>
    rw [result_proceed, hg]
    dsimp only
    unfold afterGate
    rw [Job.result_bind_ok (Job.result_settle _ _), Job.result_bind_error hc]
    rfl
  | stopped hw he =>
    rw [hw.result, settleWork, he]
    rfl
  | undelivered hw ho hd =>
    rw [hw.result, settleWork, ho]
    dsimp only
    rw [Job.result_bind_ok (Job.result_settle _ _), hd]
    rfl
  | delivered hw ho hd =>
    rw [hw.result, settleWork, ho]
    dsimp only
    rw [Job.result_bind_ok (Job.result_settle _ _), hd]
    rfl

theorem serves_extends (p : Provider) : Serves (Extends fun _ => True) p :=
  serves (Host.frame_extends _) Model.told_any (fun _ _ => trivial) p

/-- Whatever a run comes to, its log only gets longer. -/
theorem Ends.extended (he : r.Ends daemon ask h w k)
    (hask : ∀ m, Keeps (Extends fun _ => True) (ask m)) : Extends (fun _ => True) h k :=
  (proceed_inherits (Host.frame_extends _).hereditary (fun _ => trivial) Model.told_any
    (fun _ _ => trivial) (fun _ => hask _) (fun _ _ => trivial) (fun _ _ => trivial)
    daemon).after he.result

/-! Where the timer can be measured, every run has an end. -/

/-- What a halt of the action is to its run: of a failure the label is kept. -/
def executed : Halt → Halt
  | .failed f => .failed (.execution f.label)
  | .interrupted i => .interrupted i

/-- The work is the program of the action, asked of a client once the timer is read. -/
theorem result_work {c : Model.Client} (hm : m.Measurable)
    (hc : ∀ request, Keeps (Extends P) (c.backend.complete request)) (t : Model.Told P) :
    ∃ start n latency timer, Job.readTimer.result m = (.ok start, n) ∧
      (r.work c).result m = (.ok {
          latency
          ending := ((Model.runProgram c (r.action.run r.task)).result n).1.mapError executed },
        { ((Model.runProgram c (r.action.run r.task)).result n).2 with timer }) := by
  obtain ⟨start, hstart, left, hleft, hread⟩ := Job.result_readTimer m
  have hkeeps := Model.runProgram_inherits hc (Host.frame_extends P).hereditary t
    (r.action.run r.task) { m with timer := left }
  obtain ⟨latency, timer, -, hsince⟩ := Job.result_since hm hstart (hkeeps.timer.trans hleft)
  refine ⟨start, _, latency, timer, hread, ?_⟩
  unfold work
  rw [Job.result_bind_ok hread, Job.result_bind_ok (Job.result_settle _ _),
    Job.result_bind_ok hsince]
  rfl

/-- The work of a run behind the gate, with its client. -/
theorem result_prepared_work {c : Model.Client} (hm : h.Measurable)
    (hask : ∀ m, Keeps (Extends fun _ => True) (ask m))
    (hg : (Gate.pass r.config (r.request daemon ask)).result h = (.ok (), k))
    (hc : r.prepare.result k = (.ok c, m)) : ∃ start n latency timer,
      Job.readTimer.result m = (.ok start, n) ∧ (r.work c).result m = (.ok {
          latency
          ending := ((Model.runProgram c (r.action.run r.task)).result n).1.mapError executed },
        { ((Model.runProgram c (r.action.run r.task)).result n).2 with timer }) := by
  have f := (Host.frame_extends fun _ => True).hereditary
  have hpass : Extends (fun _ => True) h k :=
    (Gate.pass_inherits f (fun _ _ => trivial) fun _ => hask _).after hg
  have hprepare : Extends (fun _ => True) k m :=
    (prepare_inherits f (fun _ => trivial) (serves_extends _).opening).after hc
  obtain ⟨b, hb⟩ := prepare_backend hc
  exact result_work (hm.of_suffix (hprepare.timer.trans hpass.timer))
    ((serves_extends _).complete b _ m hb) Model.told_any

theorem exists_ends (hm : h.Measurable) (hask : ∀ m, Keeps (Extends fun _ => True) (ask m)) :
    ∃ w k, r.Ends daemon ask h w k := by
  rcases hg : (Gate.pass r.config (r.request daemon ask)).result h with ⟨e | ⟨⟩, k⟩
  · exact ⟨_, _, .held hg⟩
  rcases hc : r.prepare.result k with ⟨e | c, m⟩
  · exact ⟨_, _, .unready hg hc⟩
  obtain ⟨start, n, latency, timer, -, hw⟩ := result_prepared_work hm hask hg hc
  have hworked : r.Worked daemon ask h _ _ := ⟨k, c, m, hg, hc, hw⟩
  generalize Work.mk latency _ = w at hworked
  cases ho : w.ending with
  | error e => exact ⟨_, _, .stopped hworked ho⟩
  | ok output =>
    rcases hd : (r.deliver output).result _ with ⟨e | ⟨⟩, q⟩
    · exact ⟨_, _, .undelivered hworked ho hd⟩
    · exact ⟨_, _, .delivered hworked ho hd⟩

end Run
end ClipActions
