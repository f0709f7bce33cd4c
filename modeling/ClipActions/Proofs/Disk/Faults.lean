import ClipActions.Proofs.Disk.Nodes

/-!
What a disk may answer instead of a result: a fault of the system, or that a text is no name.
-/
namespace ClipActions

def Failure.IsFault : Failure → Prop
  | .os _ | .nullByte | .unencodable _ => True
  | _ => False

namespace Disk

variable {α : Type} {d e : Disk} {p l : Path} {f : Failure}

def Faulty (x : Except Failure α) : Prop := ∀ f, x = .error f → f.IsFault

namespace Faulty

theorem ok (a : α) : Faulty (.ok a : Except Failure α) := fun _ hf => by cases hf

theorem error (hf : f.IsFault) : Faulty (.error f : Except Failure α) := by
  intro f' h
  cases h
  exact hf

theorem bind {β : Type} {x : Except Failure α} {g : α → Except Failure β} (hx : Faulty x)
    (hg : ∀ a, Faulty (g a)) : Faulty (x >>= g) := by
  cases x with
  | error f => exact fun f' h => hx f' (by cases h; rfl)
  | ok a => exact hg a

end Faulty

theorem isFault_of_name {t : Text} (hf : Name.fault? t = some f) : f.IsFault := by
  unfold Name.fault? at hf
  split at hf
  · cases hf
    trivial
  · split at hf
    · cases hf
      trivial
    · cases hf

theorem step_faulty (d : Disk) (p l : Path) (part : Text) :
    Faulty (d.step p l part) := by
  unfold step
  split
  · exact .error trivial
  · exact .error trivial
  · split
    · exact .error trivial
    · exact .ok _

theorem locate_faulty (d : Disk) (p : Path) : Faulty (d.locate p) := by
  have hwalk : ∀ (parts : List Text) l, Faulty (parts.foldlM (d.step p) l) := by
    intro parts
    induction parts with
    | nil => exact fun l => .ok l
    | cons part parts ih => exact fun l => (step_faulty d p l part).bind ih
  unfold locate
  split
  · exact .error (isFault_of_name ‹_›)
  · split
    · exact .error trivial
    · exact hwalk _ _

theorem find?_faulty (d : Disk) (p : Path) : Faulty (d.find? p) := by
  unfold find?
  have hl := locate_faulty d p
  split
  · exact .ok _
  · split
    · exact .ok _
    · exact .error (hl _ ‹_›)

theorem isDirectory_faulty (d : Disk) (p : Path) : Faulty (d.isDirectory p) := by
  unfold isDirectory
  exact (find?_faulty d p).bind fun _ => .ok _

theorem makeWithin_faulty (d : Disk) (p : Path) : Faulty (d.makeWithin p) := by
  have hnew : Faulty (d.makeNew p) := by
    refine (locate_faulty d p).bind fun l => ?_
    split
    · exact .ok _
    · exact .error trivial
  unfold makeWithin
  split
  · exact .ok _
  · split
    · exact .error trivial
    · refine (isDirectory_faulty d p).bind fun there => ?_
      split
      · exact .ok _
      · exact .error trivial
  · exact .error (hnew _ ‹_›)

theorem makeAll_fault (d : Disk) (p : Path) (hf : (d.makeAll p).2 = some f) : f.IsFault := by
  have hsame : ∀ e : Disk, (e.orSame (e.makeWithin p)).2 = some f → f.IsFault := by
    intro e he
    have hw := makeWithin_faulty e p
    cases hx : e.makeWithin p with
    | ok e' =>
      rw [hx] at he
      cases he
    | error g =>
      rw [hx] at he
      cases he
      exact hw _ hx
  cases hd : d.makeWithin p with
  | ok e =>
    rw [makeAll_of_ok hd] at hf
    cases hf
  | error g =>
    by_cases hm : Missing p g
    · rw [makeAll_of_missing hd hm] at hf
      cases hda : d.makeAll p.parent with
      | mk e fd =>
        rw [hda] at hf
        cases fd with
        | none => exact hsame e hf
        | some g' =>
          cases hf
          exact makeAll_fault d p.parent (by rw [hda])
    · rw [makeAll_of_failed hd hm] at hf
      cases hf
      exact makeWithin_faulty d p _ hd

termination_by p.parts.length

decreasing_by exact hm.parent_length

theorem makeDirectory_fault (d : Disk) (p : Path) (hf : (d.makeDirectory p).2 = some f) :
    f.IsFault := by
  unfold makeDirectory at hf
  split at hf
  · cases hf
    trivial
  · exact makeAll_fault d p hf

theorem append_fault (d : Disk) (p : Path) (bytes : Bytes) (hf : (d.append p bytes).2 = some f) :
    f.IsFault := by
  have happendable : Faulty (d.appendable p) := by
    refine (locate_faulty d p).bind fun l => ?_
    split
    · exact .error trivial
    · exact .ok _
  unfold append at hf
  split at hf
  · cases hf
    exact happendable _ ‹_›
  · split at hf
    · cases hf
      trivial
    · cases hf

end Disk
end ClipActions
