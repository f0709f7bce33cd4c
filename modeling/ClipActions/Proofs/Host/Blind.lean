import ClipActions.Proofs.Agent.Requests
import ClipActions.Proofs.Disk.Nodes
import ClipActions.Proofs.Gate.Decision
import ClipActions.Proofs.Host.Parallel

/-!
Jobs that are blind to the disk. Two hosts stand beside each other if they are the same but for what
is on their disks. A job is blind if it cannot tell such hosts apart: it comes to the same end on
both and leaves hosts that stand beside each other, so it has done the same on both.
-/
namespace ClipActions

namespace Disk

variable {d : Disk} {p l : Path}

def Holds (d : Disk) (p : Path) : Prop := ∃ n, d.find? p = .ok (some n)

theorem holds_iff : d.Holds p ↔ ∃ l, d.locate p = .ok l ∧ d.node? l ≠ none := by
  unfold Holds find?
  cases d.locate p with
  | ok l => simp [Option.ne_none_iff_exists']
  | error f =>
    dsimp only
    split <;> simp

/-- What stands at a path still does when a file has been written. -/
theorem Holds.put (h : d.Holds p) (hl : d.node? l ≠ some .directory) (c : Bytes) :
    (d.put l (.file c)).Holds p := by
  obtain ⟨q, hq, hn⟩ := holds_iff.1 h
  have hwithin : Within d (d.put l (.file c)) := by
    intro m hm
    have hml : m ≠ l := fun hml => hl (by rwa [← hml])
    rwa [node?_put_of_ne d _ hml]
  refine holds_iff.2 ⟨q, locate_of_within hwithin hq, ?_⟩
  by_cases hql : q = l
  · subst hql
    simp [node?_put_self d _ hl]
  · rwa [node?_put_of_ne d _ hql]

theorem Holds.append (h : d.Holds p) (q : Path) (bytes : Bytes) : (d.append q bytes).1.Holds p := by
  unfold Disk.append
  cases hq : d.appendable q with
  | error f => exact h
  | ok l =>
    obtain ⟨-, hl⟩ := appendable_eq_ok.1 hq
    dsimp only
    split
    · split
      · exact h
      · exact h.put hl _
    · exact h.put hl _

end Disk

namespace Host

/-- Two hosts that are the same but for their disks. If there is no agent, something stands at
some paths on both. -/
structure Beside (paths : Path → Prop) (h k : Host) : Prop where
  rest : k = { h with disk := k.disk }
  holds : h.agent = .absent → ∀ p, paths p → h.disk.Holds p ∧ k.disk.Holds p

variable {paths : Path → Prop} {h k : Host}

theorem Beside.split (hb : Beside paths h k) : ∃ disk, k = { h with disk } := ⟨_, hb.rest⟩

theorem Beside.trace (hb : Beside paths h k) : k.trace = h.trace := by
  rw [hb.rest]

end Host

/-- A job that does not tell hosts apart that stand beside each other. -/
def Job.Blind {α : Type} (paths : Path → Prop) (x : Job α) : Prop :=
  ∀ h k, Host.Beside paths h k →
    (x.result k).1 = (x.result h).1 ∧ Host.Beside paths (x.result h).2 (x.result k).2

section

variable [Runtime]

/-- What the stages of a run do goes on in the same way beside. -/
theorem Host.Beside.likeness (paths : Path → Prop) : Host.Likeness (Host.Beside paths) where
  rest hb := by
    obtain ⟨disk, rfl⟩ := hb.split
    rfl
  add e hb := by
    obtain ⟨disk, rfl⟩ := hb.split
    exact ⟨rfl, hb.holds⟩
  use timer service terminal drawn hb := by
    obtain ⟨disk, rfl⟩ := hb.split
    exact ⟨rfl, hb.holds⟩
  -- The disk that a record of the log is written to has no say in what comes of it.
  logRecord r := by
    unfold Job.logRecord
    split
    · intro h k hb
      obtain ⟨disk, rfl⟩ := hb.split
      obtain ⟨now, home, draws, drawn, timer, agent, refusal, service, silence, openHalt?, clipboardFault,
        copyHalt?, terminal, held, load, target, registry, trace⟩ := h
      rw [Job.result_bind_ok (Job.result_get _), Job.result_bind_ok (Job.result_get _)]
      cases target with
      | observer => exact ⟨rfl, hb⟩
      | nowhere => exact ⟨rfl, hb⟩
      | file p first =>
        dsimp only
        cases Log.Block.format first now r with
        | error f => exact ⟨rfl, hb⟩
        | ok block =>
          refine ⟨rfl, rfl, fun ha q hq => ?_⟩
          obtain ⟨hheld, hheld'⟩ := hb.holds ha q hq
          simp only [Job.take, pure_bind, Job.result_set]
          cases Utf8.encode? (block ++ "\n") with
          | none => exact ⟨hheld, hheld'⟩
          | some bytes => exact ⟨hheld.append p bytes, hheld'.append p bytes⟩
    · exact .pure _

end

namespace Job.Blind

open Host (Beside)

variable {paths : Path → Prop}

section

variable [Runtime]

/-- Blindness is handed on, whatever the parts of a job do to their surroundings. -/
theorem hereditary (paths : Path → Prop) : Hereditary (fun _ => True) (Blind paths) :=
  (Beside.likeness paths).hereditary

end

/-- Where there is no agent the disk says whether there is a socket, so it must be there. -/
theorem socketThere {socket : Path} (hs : paths socket) :
    Blind paths (Agent.socketThere socket) := by
  intro h k hb
  obtain ⟨disk, rfl⟩ := hb.split
  rw [Agent.result_socketThere, Agent.result_socketThere]
  refine ⟨?_, hb⟩
  unfold Agent.there
  cases ha : h.agent with
  | absent =>
    obtain ⟨⟨n, hn⟩, ⟨n', hn'⟩⟩ := hb.holds ha socket hs
    dsimp only at hn' ⊢
    rw [hn, hn']
    rfl
  | stale => rfl
  | serving routes => rfl

theorem exchange (socket : Path) (method path : Text) (body : Option Json) :
    Blind paths (Agent.exchange socket method path body) := by
  intro h k hb
  obtain ⟨disk, rfl⟩ := hb.split
  rw [Agent.result_exchange, Agent.result_exchange]
  -- An agent that is there does not go away by being asked.
  have habsent : (h.agent.answer path).2 = .absent → h.agent = .absent := by
    intro ha
    cases hp : h.agent with
    | absent => rfl
    | stale =>
      rw [hp] at ha
      cases ha
    | serving routes =>
      rw [hp, Agent.Peer.answer] at ha
      split at ha
      · cases ha
      · cases ha
  exact ⟨rfl, rfl, fun ha => hb.holds (habsent ha)⟩

section

variable [Runtime]

/-- A request to the agent. -/
theorem request {socket : Path} (hs : paths socket) (method path : Text) (body : Option Json) :
    Blind paths (Agent.request socket method path body) :=
  Agent.request_inherits (hereditary paths) (socketThere hs) (exchange _ _ _ _) fun _ _ => trivial

end

theorem askTerminal (message : Text) : Blind paths (Gate.askTerminal message) :=
  Gate.askTerminal_inherits (hereditary paths) (Beside.likeness paths).readLine trivial

end Job.Blind

namespace Agent

variable {socket : Path} {h k : Host}

theorem holds_of_there (hs : there socket h = .ok true) (ha : h.agent = .absent) :
    h.disk.Holds socket := by
  unfold there at hs
  rw [ha] at hs
  cases hf : h.disk.find? socket with
  | error f =>
    rw [hf] at hs
    cases hs
  | ok found =>
    rw [hf] at hs
    injection hs with hs
    obtain ⟨n, rfl⟩ := Option.isSome_iff_exists.1 hs
    exact ⟨n, hf⟩

/-- A host stands beside another if the disk of each shows the socket. -/
theorem beside_of_there (hr : k = { h with disk := k.disk }) (hs : there socket h = .ok true)
    (hs' : there socket k = .ok true) : Host.Beside (· = socket) h k := by
  refine ⟨hr, fun ha p hp => ?_⟩
  subst hp
  have ha' : k.agent = .absent := by
    rw [hr]
    exact ha
  exact ⟨holds_of_there hs ha, holds_of_there hs' ha'⟩

end Agent
end ClipActions
