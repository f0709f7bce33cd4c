import ClipActions.Proofs.Disk.Nodes
import ClipActions.Proofs.Job.Result

/-!
What jobs do to their host. A step is one effect, one record in the log file, or something that is
used up. A frame is a relation between hosts that every step obeys and every chain of steps; what a
job is made of keeps a frame, so the job keeps it.
-/
namespace ClipActions

variable {P Q : Effect → Prop}

def Log.Target.file? : Log.Target → Option Path
  | .file p _ => some p
  | _ => none

namespace Host

variable {h k m : Host} {l q : Path}

/-- The log file is there, at a location. -/
def LogsInto (h : Host) (l : Path) : Prop :=
  ∃ p c, h.target.file? = some p ∧ h.disk.locate p = .ok l ∧ h.disk.node? l = some (.file c)

/-- If records go to a file, it is there. -/
def LogOpen (h : Host) : Prop := ∀ p, h.target.file? = some p → ∃ l, h.LogsInto l

/-- At most the log file has got longer. -/
structure Logged (h k : Host) : Prop where
  file? : k.target.file? = h.target.file?
  disk : h.LogOpen → k.disk = h.disk ∨ ∃ l, h.LogsInto l ∧ Disk.Grown l h.disk k.disk

theorem LogsInto.eq (hl : h.LogsInto l) (hq : h.LogsInto q) : l = q := by
  obtain ⟨p, -, hp, hl, -⟩ := hl
  obtain ⟨p', -, hp', hq, -⟩ := hq
  rw [hp] at hp'
  cases hp'
  rw [hl] at hq
  exact Except.ok.inj hq

namespace Logged

theorem refl (h : Host) : Logged h h := ⟨rfl, fun _ => .inl rfl⟩

theorem of_eq (hf : k.target.file? = h.target.file?) (hd : k.disk = h.disk) : Logged h k :=
  ⟨hf, fun _ => .inl hd⟩

theorem alike (hk : Logged h k) (ho : h.LogOpen) : Disk.Alike h.disk k.disk := by
  rcases hk.disk ho with he | ⟨l, -, hg⟩
  · rw [he]
    exact .refl _
  · exact hg.alike

theorem logsInto (hk : Logged h k) (ho : h.LogOpen) (hl : h.LogsInto l) : k.LogsInto l := by
  obtain ⟨p, c, hp, hloc, hn⟩ := hl
  have hsame : k.disk.locate p = .ok l := by rw [(hk.alike ho).locate_eq, hloc]
  rcases hk.disk ho with he | ⟨q, hq, hg⟩
  · exact ⟨p, c, hk.file?.trans hp, hsame, by rw [he, hn]⟩
  · obtain rfl := hq.eq ⟨p, c, hp, hloc, hn⟩
    obtain ⟨c, s, -, hn⟩ := hg.file
    exact ⟨p, c ++ s, hk.file?.trans hp, hsame, hn⟩

theorem logOpen (hk : Logged h k) (ho : h.LogOpen) : k.LogOpen := by
  intro p hp
  obtain ⟨l, hl⟩ := ho p (hk.file?.symm.trans hp)
  exact ⟨l, hk.logsInto ho hl⟩

theorem trans (hk : Logged h k) (hm : Logged k m) : Logged h m := by
  refine ⟨hm.file?.trans hk.file?, fun ho => ?_⟩
  rcases hm.disk (hk.logOpen ho) with he | ⟨l, hl, hg⟩
  · rw [he]
    exact hk.disk ho
  · rcases hk.disk ho with he | ⟨q, hq, hg'⟩
    · obtain ⟨p, c, hp, hloc, hn⟩ := hl
      rw [he] at hg hloc hn
      exact .inr ⟨l, ⟨p, c, hk.file?.symm.trans hp, hloc, hn⟩, hg⟩
    · obtain rfl := hl.eq (hk.logsInto ho hq)
      exact .inr ⟨l, hq, hg'.trans hg⟩

end Logged

/-- One step of a job whose effects have a property. -/
inductive Step (P : Effect → Prop) (h : Host) : Host → Prop where
  | emit (e : Effect) (he : P e) : Step P h { h with trace := h.trace ++ [e] }
  | log (disk : Disk) (target : Log.Target) (hl : Logged h { h with disk, target }) :
    Step P h { h with disk, target }
  | use (timer : List Double) (agent : Agent.Peer) (service : List Service.Answer)
    (terminal : Text) (drawn : Nat) (ht : timer <:+ h.timer) (hs : service <:+ h.service) :
    Step P h { h with timer, agent, service, terminal, drawn }

/-- A relation that every step obeys and every chain of steps. -/
structure Frame (P : Effect → Prop) (R : Host → Host → Prop) : Prop where
  refl : ∀ h, R h h
  trans : ∀ {h k m}, R h k → R k m → R h m
  step : ∀ {h k}, Step P h k → R h k

/-- Effects of one property have been added to the trace. -/
def Adds (P : Effect → Prop) (h k : Host) : Prop :=
  ∃ es, k.trace = h.trace ++ es ∧ ∀ e ∈ es, P e

/-- Effects of one property have been added to the trace, and at most the log file has got longer.
What a job meets on this host later on has not changed. -/
structure Extends (P : Effect → Prop) (h k : Host) : Prop where
  adds : Adds P h k
  logged : Logged h k
  now : k.now = h.now
  timer : k.timer <:+ h.timer
  openHalt? : k.openHalt? = h.openHalt?
  clipboardFault : k.clipboardFault = h.clipboardFault
  copyHalt? : k.copyHalt? = h.copyHalt?

theorem Adds.refl (h : Host) : Adds P h h := ⟨[], by simp, by simp⟩

theorem Adds.trans (hk : Adds P h k) (hm : Adds P k m) : Adds P h m := by
  obtain ⟨es, hes, hp⟩ := hk
  obtain ⟨fs, hfs, hq⟩ := hm
  refine ⟨es ++ fs, by rw [hfs, hes, List.append_assoc], fun e he => ?_⟩
  rcases List.mem_append.1 he with he | he
  · exact hp e he
  · exact hq e he

theorem Adds.mono (hk : Adds P h k) (hpq : ∀ e, P e → Q e) : Adds Q h k := by
  obtain ⟨es, hes, hp⟩ := hk
  exact ⟨es, hes, fun e he => hpq e (hp e he)⟩

theorem Adds.of_eq (hk : k.trace = h.trace) : Adds P h k := ⟨[], by simp [hk], by simp⟩

theorem frame_adds (P : Effect → Prop) : Frame P (Adds P) where
  refl := Adds.refl
  trans := Adds.trans
  step hs := by
    cases hs with
    | emit e he => exact ⟨[e], rfl, by simpa using he⟩
    | log disk target hl => exact .of_eq rfl
    | use timer agent service terminal drawn ht hs => exact .of_eq rfl

theorem frame_extends (P : Effect → Prop) : Frame P (Extends P) where
  refl h := ⟨.refl h, .refl h, rfl, List.suffix_refl _, rfl, rfl, rfl⟩
  trans hk hm := ⟨hk.adds.trans hm.adds, hk.logged.trans hm.logged, hm.now.trans hk.now,
    hm.timer.trans hk.timer, hm.openHalt?.trans hk.openHalt?,
    hm.clipboardFault.trans hk.clipboardFault, hm.copyHalt?.trans hk.copyHalt?⟩
  step hs := by
    have hadds := (frame_adds P).step hs
    cases hs with
    | emit e he => exact ⟨hadds, .of_eq rfl rfl, rfl, List.suffix_refl _, rfl, rfl, rfl⟩
    | log disk target hl => exact ⟨hadds, hl, rfl, List.suffix_refl _, rfl, rfl, rfl⟩
    | use timer agent service terminal drawn ht hs =>
      exact ⟨hadds, .of_eq rfl rfl, rfl, ht, rfl, rfl, rfl⟩

/-- The registry of a process is no part of what a job is made of. -/
theorem frame_registry (P : Effect → Prop) : Frame P fun h k => k.registry = h.registry where
  refl _ := rfl
  trans hk hm := hm.trans hk
  step hs := by cases hs <;> rfl

theorem Extends.mono (hk : Extends P h k) (hpq : ∀ e, P e → Q e) : Extends Q h k :=
  { hk with adds := hk.adds.mono hpq }

end Host
end ClipActions
