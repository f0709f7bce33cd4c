import ClipActions.Proofs.Disk.Nodes
import ClipActions.Proofs.Text.Encoding

/-!
Making a directory twice. Where a path leads somewhere, the directory before its last part is there;
so what making a directory has come to once, it comes to again.
-/
namespace ClipActions

namespace Disk.Name

theorem size_eq (n : Nat) (t : Text) :
    t.foldl (fun n s => n + if s.isLone then 1 else (Utf8.encodeCode s.code).length) n =
      n + size t := by
  unfold size
  induction t generalizing n with
  | nil => rfl
  | cons s t ih => rw [List.foldl_cons, List.foldl_cons, ih, ih (0 + _)]; omega

theorem size_le_append (t u : Text) : size t ≤ size (t ++ u) := by
  rw [size.eq_def (t ++ u), List.foldl_append, ← size.eq_def, size_eq]
  exact Nat.le_add_right _ _

theorem fault?_eq_none {t : Text} : fault? t = none ↔
    (∀ s ∈ t, (s.isLone && !isByte s) = false) ∧ .char '\x00' ∉ t := by
  rw [← Utf8.obstacleWhere?_eq_none]
  unfold fault?
  cases Utf8.obstacleWhere? (fun s => s.isLone && !isByte s) t <;> simp

/-- What begins a name is a name. -/
theorem fault?_of_append {t u : Text} (h : fault? (t ++ u) = none) : fault? t = none := by
  obtain ⟨hlone, hnull⟩ := fault?_eq_none.1 h
  exact fault?_eq_none.2 ⟨fun s hs => hlone s (List.mem_append_left u hs),
    fun hm => hnull (List.mem_append_left u hm)⟩

end Disk.Name

namespace Path

variable {p : Path}

theorem joinWith_append_singleton (separator : Text) (ts : List Text) (t : Text) :
    ∃ u, Text.joinWith separator (ts ++ [t]) = Text.joinWith separator ts ++ u := by
  unfold Text.joinWith
  induction ts with
  | nil => exact ⟨t, by simp⟩
  | cons s ts ih =>
    obtain ⟨u, hu⟩ := ih
    cases ts with
    | nil => exact ⟨separator ++ t, by simp [List.intercalate]⟩
    | cons r ts =>
      refine ⟨u, ?_⟩
      simp only [List.intercalate, List.cons_append, List.intersperse_cons_cons, List.flatten_cons,
        List.append_assoc] at hu ⊢
      rw [hu]

/-- The text of a directory begins the text of what is in it, unless it is the working directory. -/
theorem text_parent (hp : p.parts ≠ []) :
    p.parent.text = "." ∨ ∃ u, p.text = p.parent.text ++ u := by
  unfold text
  split
  · exact .inl rfl
  · obtain ⟨u, hu⟩ := joinWith_append_singleton "/" p.parts.dropLast (p.parts.getLast hp)
    rw [List.dropLast_concat_getLast hp] at hu
    refine .inr ⟨u, ?_⟩
    rw [if_neg fun h => hp h.2, hu, List.append_assoc]
    rfl

end Path

namespace Disk

variable {d e : Disk} {l p : Path} {f g : Failure}

/-- The directory before the last part of a path has a name if the path has one. -/
theorem name_parent (hp : p.parts ≠ []) (hname : Name.fault? p.text = none)
    (hsize : Name.size p.text ≤ Name.maxPath) :
    Name.fault? p.parent.text = none ∧ Name.size p.parent.text ≤ Name.maxPath := by
  rcases Path.text_parent hp with h | ⟨u, hu⟩
  · rw [h]
    decide
  · rw [hu] at hname hsize
    exact ⟨Name.fault?_of_append hname, (Name.size_le_append p.parent.text u).trans hsize⟩

/-- A path that leads somewhere leads there from a directory. -/
theorem locate_parent (hl : d.locate p = .ok l) (hp : p.parts ≠ []) :
    ∃ m, d.locate p.parent = .ok m ∧ d.node? m = some .directory := by
  obtain ⟨hname, hsize, hparts⟩ := locate_eq_ok.1 hl
  obtain ⟨hname', hsize'⟩ := name_parent hp hname hsize
  rw [← List.dropLast_concat_getLast hp, List.foldlM_append,
    Except.bind_eq_ok] at hparts
  obtain ⟨m, hm, hlast⟩ := hparts
  obtain ⟨r, hr, -⟩ := Except.bind_eq_ok.1 hlast
  obtain ⟨hn, -, -⟩ := step_eq_ok.1 hr
  exact ⟨m, locate_eq_ok.2 ⟨hname', hsize', foldlM_of_within (fun _ h => h) hm⟩, hn⟩

theorem isDirectory_eq_true : d.isDirectory p = .ok true ↔
    ∃ l, d.locate p = .ok l ∧ d.node? l = some .directory := by
  unfold isDirectory find?
  cases hl : d.locate p with
  | error f =>
    dsimp only
    split
    · simp [Functor.map, Except.map]
    · simp [Functor.map, Except.map]
  | ok l => simp [Functor.map, Except.map]

theorem isDirectory_parent (hl : d.locate p = .ok l) (hp : p.parts ≠ []) :
    d.isDirectory p.parent = .ok true :=
  isDirectory_eq_true.2 (locate_parent hl hp)

theorem makeWithin_of_isDirectory (h : d.isDirectory p = .ok true) : d.makeWithin p = .ok d := by
  obtain ⟨l, hl, hn⟩ := isDirectory_eq_true.1 h
  have hnew : d.makeNew p = .error (.os (.fileExists p.text)) := by
    unfold makeNew
    rw [hl]
    simp only [bind, Except.bind, hn]
  have hcode : (OsFault.fileExists p.text).code ≠ 2 := (by decide : 17 ≠ 2)
  unfold makeWithin
  rw [hnew]
  dsimp only
  rw [if_neg hcode, unlessThere, h]
  rfl

/-- What has been made is there, and a way leads to it. -/
theorem isDirectory_of_makeWithin (h : d.makeWithin p = .ok e) : e.isDirectory p = .ok true := by
  rcases makeWithin_cases h with hn | ⟨hd, rfl⟩
  · have hwithin := (makeNew_widened hn).within
    obtain ⟨l, hl, hnone, rfl⟩ := makeNew_eq_ok.1 hn
    exact isDirectory_eq_true.2
      ⟨l, locate_of_within hwithin hl, node?_put_self d _ (by simp [hnone])⟩
  · exact hd

theorem locate_of_makeWithin (h : d.makeWithin p = .ok e) : ∃ l, d.locate p = .ok l := by
  rcases makeWithin_cases h with hn | ⟨hd, -⟩
  · obtain ⟨l, hl, -⟩ := makeNew_eq_ok.1 hn
    exact ⟨l, hl⟩
  · obtain ⟨l, hl, -⟩ := isDirectory_eq_true.1 hd
    exact ⟨l, hl⟩

theorem makeAll_of_isDirectory (h : d.isDirectory p = .ok true) : d.makeAll p = (d, none) :=
  makeAll_of_ok (makeWithin_of_isDirectory h)

/-- Where the directory on the way could be made, what counts is the last attempt. -/
theorem orSame_of_makeAll (hd : d.makeWithin p = .error f) (hm : Missing p f)
    (hp : d.makeAll p.parent = (e, none)) : d.makeAll p = e.orSame (e.makeWithin p) := by
  rw [makeAll_of_missing hd hm, hp]

/-- Where the directory on the way could not be made, that failure counts. -/
theorem makeAll_of_parent (hd : d.makeWithin p = .error f) (hm : Missing p f)
    (hp : d.makeAll p.parent = (e, some g)) : d.makeAll p = (e, some g) := by
  rw [makeAll_of_missing hd hm, hp]

theorem isDirectory_of_makeAll (h : d.makeAll p = (e, none)) : e.isDirectory p = .ok true := by
  have hmade : ∀ {d' : Disk}, d'.orSame (d'.makeWithin p) = (e, none) →
      e.isDirectory p = .ok true := by
    intro d' h'
    cases hd : d'.makeWithin p with
    | ok e' =>
      rw [hd] at h'
      cases h'
      exact isDirectory_of_makeWithin hd
    | error f =>
      rw [hd] at h'
      cases h'
  cases hd : d.makeWithin p with
  | ok e' =>
    refine @hmade d ?_
    rw [← h, makeAll_of_ok hd, hd]
    rfl
  | error f =>
    by_cases hm : Missing p f
    · cases hp : d.makeAll p.parent with
      | mk d' r =>
        cases r with
        | none => exact hmade ((orSame_of_makeAll hd hm hp).symm.trans h)
        | some g => cases (makeAll_of_parent hd hm hp).symm.trans h
    · cases (makeAll_of_failed hd hm).symm.trans h

/-- To make a directory where that has failed before changes nothing, and fails again. -/
theorem makeAll_failed_again {d e : Disk} {p : Path} {f : Failure}
    (h : d.makeAll p = (e, some f)) : ∃ g, e.makeAll p = (e, some g) := by
  cases hd : d.makeWithin p with
  | ok e' => cases (makeAll_of_ok hd).symm.trans h
  | error f' =>
    by_cases hm : Missing p f'
    · cases hp : d.makeAll p.parent with
      | mk d' r =>
        cases r with
        | none =>
          have hlast := (orSame_of_makeAll hd hm hp).symm.trans h
          have hparent := makeAll_of_isDirectory (isDirectory_of_makeAll hp)
          cases he : d'.makeWithin p with
          | ok e' =>
            rw [he] at hlast
            cases hlast
          | error g =>
            have hsame : d'.orSame (d'.makeWithin p) = (d', some g) := by rw [he]; rfl
            obtain ⟨rfl, -⟩ := Prod.mk.inj (hsame.symm.trans hlast)
            by_cases hm' : Missing p g
            · exact ⟨g, (orSame_of_makeAll he hm' hparent).trans hsame⟩
            · exact ⟨g, makeAll_of_failed he hm'⟩
        | some g =>
          obtain ⟨rfl, -⟩ := Prod.mk.inj ((makeAll_of_parent hd hm hp).symm.trans h)
          obtain ⟨g', hagain⟩ := makeAll_failed_again hp
          cases he : d'.makeWithin p with
          | ok e' =>
            -- What leads to `p` passes the directory before it, which then needs no making.
            obtain ⟨l, hl⟩ := locate_of_makeWithin he
            obtain ⟨-, -, -, hparts⟩ := hm
            cases (makeAll_of_isDirectory (isDirectory_parent hl hparts)).symm.trans hagain
          | error f'' =>
            by_cases hm' : Missing p f''
            · exact ⟨g', makeAll_of_parent he hm' hagain⟩
            · exact ⟨f'', makeAll_of_failed he hm'⟩
    · obtain ⟨rfl, -⟩ := Prod.mk.inj ((makeAll_of_failed hd hm).symm.trans h)
      exact ⟨f', makeAll_of_failed hd hm⟩

termination_by p.parts.length

decreasing_by exact hm.parent_length

/-- To make a directory once more changes nothing. -/
theorem makeAll_again (d : Disk) (p : Path) : ((d.makeAll p).1.makeAll p).1 = (d.makeAll p).1 := by
  cases h : d.makeAll p with
  | mk e r =>
    cases r with
    | none => rw [makeAll_of_isDirectory (isDirectory_of_makeAll h)]
    | some f =>
      obtain ⟨g, hg⟩ := makeAll_failed_again h
      rw [hg]

theorem makeDirectory_again (d : Disk) (p : Path) :
    ((d.makeDirectory p).1.makeDirectory p).1 = (d.makeDirectory p).1 := by
  have hrefusal := (makeDirectory_widened d p).refusal?
  unfold makeDirectory at hrefusal ⊢
  cases hr : d.refusal? (.makeDirectory p) with
  | some refusal => simp only [hr]
  | none =>
    rw [hr] at hrefusal
    dsimp only at hrefusal ⊢
    rw [hrefusal, hr]
    exact makeAll_again d p

/-! What a disk refuses is of no account to the rest of it. -/

/-- The disk with other refusals. -/
def refusing (d : Disk) (r : Use → Option Refusal) : Disk := { d with refusal? := r }

theorem put_refusing (d : Disk) (r : Use → Option Refusal) (l : Path) (n : Node) :
    (d.refusing r).put l n = (d.put l n).refusing r := by
  unfold put refusing
  split <;> rfl

theorem makeNew_refusing (d : Disk) (r : Use → Option Refusal) (p : Path) :
    (d.refusing r).makeNew p = (d.makeNew p).map (·.refusing r) := by
  unfold makeNew
  show (d.locate p >>= _) = _
  cases d.locate p with
  | error f => rfl
  | ok l =>
    have hnode : (d.refusing r).node? l = d.node? l := rfl
    simp only [bind, Except.bind]
    rw [hnode]
    cases d.node? l with
    | none => exact congrArg Except.ok (put_refusing d r l .directory)
    | some n => rfl

theorem makeWithin_refusing (d : Disk) (r : Use → Option Refusal) (p : Path) :
    (d.refusing r).makeWithin p = (d.makeWithin p).map (·.refusing r) := by
  have hthere : ∀ f, (d.refusing r).unlessThere p f = (d.unlessThere p f).map (·.refusing r) := by
    intro f
    unfold unlessThere
    show (d.isDirectory p >>= _) = _
    cases d.isDirectory p with
    | error g => rfl
    | ok b => cases b <;> rfl
  unfold makeWithin
  rw [makeNew_refusing]
  cases d.makeNew p with
  | ok e => rfl
  | error f =>
    cases f with
    | os fault =>
      dsimp only [Except.map]
      split
      · rfl
      · exact hthere _
    | _ => rfl

theorem makeAll_refusing (d : Disk) (r : Use → Option Refusal) (p : Path) :
    (d.refusing r).makeAll p = ((d.makeAll p).1.refusing r, (d.makeAll p).2) := by
  have hw := makeWithin_refusing d r p
  cases hd : d.makeWithin p with
  | ok e =>
    rw [hd] at hw
    rw [makeAll_of_ok hd, makeAll_of_ok hw]
  | error f =>
    rw [hd] at hw
    by_cases hm : Missing p f
    · rw [makeAll_of_missing hd hm, makeAll_of_missing hw hm, makeAll_refusing d r p.parent]
      cases d.makeAll p.parent with
      | mk e g =>
        cases g with
        | some g => rfl
        | none =>
          dsimp only
          rw [makeWithin_refusing]
          cases e.makeWithin p <;> rfl
    · rw [makeAll_of_failed hd hm, makeAll_of_failed hw hm]

termination_by p.parts.length

decreasing_by exact hm.parent_length

theorem makeDirectory_refusing {d : Disk} {r : Use → Option Refusal} {p : Path}
    (hr : r (.makeDirectory p) = d.refusal? (.makeDirectory p)) :
    (d.refusing r).makeDirectory p =
      ((d.makeDirectory p).1.refusing r, (d.makeDirectory p).2) := by
  have hrefusal : (d.refusing r).refusal? (.makeDirectory p) = d.refusal? (.makeDirectory p) := hr
  unfold makeDirectory
  rw [hrefusal]
  cases d.refusal? (.makeDirectory p) with
  | some refusal => rfl
  | none => exact makeAll_refusing d r p

end Disk
end ClipActions
