import ClipActions.Disk
import ClipActions.Proofs.Outcome

/-!
What the operations of a disk do to what stands at each location. Making directories only adds
directories, appending only lengthens one file, and neither looks at the content of any file.
-/
namespace ClipActions

def Node.isDirectory : Node → Bool
  | .directory => true
  | .file _ => false

namespace Disk

variable {d e f : Disk} {l q p : Path}

private theorem lookup_replaced (nodes : List (Path × Node)) (l q : Path) (n : Node) :
    (nodes.map fun (r, m) => if r = l then (r, n) else (r, m)).lookup q =
      if q = l ∧ nodes.any (·.1 = l) then some n else nodes.lookup q := by
  induction nodes with
  | nil => simp
  | cons x nodes ih =>
    obtain ⟨r, m⟩ := x
    by_cases hq : q = r
    · subst hq
      by_cases hr : q = l <;> simp [hr]
    · have hb : (q == r) = false := beq_false_of_ne hq
      by_cases hr : r = l
      · subst hr
        simp [hq, ih, List.lookup_cons, hb]
      · simp only [List.map_cons, if_neg hr, List.lookup_cons, hb, ih, List.any_cons,
          decide_eq_false hr, Bool.false_or]

private theorem lookup_of_absent {nodes : List (Path × Node)} (h : ¬ nodes.any (·.1 = l)) :
    nodes.lookup l = none := by
  simp only [List.any_eq_true, decide_eq_true_eq, not_exists, not_and] at h
  rw [List.lookup_eq_none_iff]
  intro x hx
  have := h x hx
  simp [Ne.symm this]

theorem node?_put (d : Disk) (l q : Path) (n : Node) :
    (d.put l n).node? q =
      if q.parts.all (· = "..") then some .directory else if q = l then some n else d.node? q := by
  unfold put node?
  split
  · rfl
  · split
    · rename_i ha
      rw [lookup_replaced]
      simp [ha]
    · rename_i ha
      rw [List.lookup_append]
      by_cases hq : q = l
      · subst hq
        simp [lookup_of_absent ha]
      · have hb : (q == l) = false := beq_false_of_ne hq
        simp [hq, List.lookup_cons, hb]

@[simp] theorem refusal?_put (d : Disk) (l : Path) (n : Node) :
    (d.put l n).refusal? = d.refusal? := by
  unfold put
  split <;> rfl

theorem node?_put_of_ne (d : Disk) {l q : Path} (n : Node) (h : q ≠ l) :
    (d.put l n).node? q = d.node? q := by
  rw [node?_put]
  split
  · rename_i hp
    rw [node?, if_pos hp]
  · rfl

/-- What is put where no directory stands, stands there. -/
theorem node?_put_self (d : Disk) {l : Path} (n : Node) (h : d.node? l ≠ some .directory) :
    (d.put l n).node? l = some n := by
  rw [node?_put]
  split
  · rename_i hp
    exact absurd (by rw [node?, if_pos hp]) h
  · rw [if_pos rfl]

/-! What an operation has found where it meets no failure. -/

theorem step_eq_ok {part : Text} : d.step p l part = .ok q ↔
    d.node? l = some .directory ∧ Name.size part ≤ Name.maxPart ∧ l.enter part = q := by
  unfold step
  rcases d.node? l with _ | ⟨c | _⟩
  · simp
  · simp
  · dsimp only
    split
    · rename_i h
      simp [Nat.not_le.2 h]
    · rename_i h
      simp [Nat.not_lt.1 h]

theorem locate_eq_ok : d.locate p = .ok l ↔ Name.fault? p.text = none ∧
    Name.size p.text ≤ Name.maxPath ∧ p.parts.foldlM (d.step p) (start p) = .ok l := by
  unfold locate
  cases Name.fault? p.text with
  | some f => simp
  | none =>
    dsimp only
    split
    · rename_i h
      simp [Nat.not_le.2 h]
    · rename_i h
      simp [Nat.not_lt.1 h]

theorem find?_of_locate (hl : d.locate p = .ok l) : d.find? p = .ok (d.node? l) := by
  rw [find?, hl]

theorem read_eq_ok {c : Bytes} : d.read p = .ok c ↔
    ∃ l, d.locate p = .ok l ∧ d.node? l = some (.file c) := by
  unfold read
  rw [Except.bind_eq_ok]
  refine exists_congr fun l => and_congr_right fun _ => ?_
  rcases d.node? l with _ | ⟨_ | _⟩ <;> simp

theorem appendable_eq_ok : d.appendable p = .ok l ↔
    d.locate p = .ok l ∧ d.node? l ≠ some .directory := by
  unfold appendable
  rw [Except.bind_eq_ok]
  constructor
  · rintro ⟨m, hm, h⟩
    split at h
    · cases h
    · rename_i hn
      cases h
      exact ⟨hm, hn⟩
  · rintro ⟨hl, hn⟩
    exact ⟨l, hl, if_neg hn⟩

theorem makeNew_eq_ok : d.makeNew p = .ok e ↔
    ∃ l, d.locate p = .ok l ∧ d.node? l = none ∧ d.put l .directory = e := by
  unfold makeNew
  rw [Except.bind_eq_ok]
  refine exists_congr fun l => and_congr_right fun _ => ?_
  cases d.node? l <;> simp

/-- A directory has been made, or was there already. -/
theorem makeWithin_cases (h : d.makeWithin p = .ok e) :
    d.makeNew p = .ok e ∨ (d.isDirectory p = .ok true ∧ d = e) := by
  unfold makeWithin at h
  split at h
  · rename_i hn
    exact .inl (hn.trans h)
  · split at h
    · cases h
    · obtain ⟨b, hb, h⟩ := Except.bind_eq_ok.1 h
      cases b with
      | false => cases h
      | true => exact .inr ⟨hb, Except.ok.inj h⟩
  · cases h

/-! Following a path looks at directories alone. -/

/-- The directories of a disk are directories of another one too. -/
def Within (d e : Disk) : Prop := ∀ l, d.node? l = some .directory → e.node? l = some .directory

/-- Parts that lead from one location to another on a disk lead there on every disk that has its
directories, whatever path they are parts of. -/
theorem foldlM_of_within (h : Within d e) {parts : List Text} {p p' : Path} {l q : Path} :
    parts.foldlM (d.step p) l = .ok q → parts.foldlM (e.step p') l = .ok q := by
  induction parts generalizing l with
  | nil => exact id
  | cons part parts ih =>
    rw [List.foldlM_cons, List.foldlM_cons, Except.bind_eq_ok, Except.bind_eq_ok]
    rintro ⟨m, hm, hq⟩
    obtain ⟨hn, hsize, hstep⟩ := step_eq_ok.1 hm
    exact ⟨m, step_eq_ok.2 ⟨h l hn, hsize, hstep⟩, ih hq⟩

theorem locate_of_within (h : Within d e) (hl : d.locate p = .ok l) : e.locate p = .ok l := by
  obtain ⟨hname, hsize, hparts⟩ := locate_eq_ok.1 hl
  exact locate_eq_ok.2 ⟨hname, hsize, foldlM_of_within h hparts⟩

/-- Two disks with the same directories and the same files, whatever these hold. -/
structure Alike (d e : Disk) : Prop where
  refusal? : e.refusal? = d.refusal?
  kinds : ∀ l, (e.node? l).map Node.isDirectory = (d.node? l).map Node.isDirectory

namespace Alike

theorem refl (d : Disk) : Alike d d := ⟨rfl, fun _ => rfl⟩

theorem none_iff (h : Alike d e) (l : Path) : e.node? l = none ↔ d.node? l = none := by
  have := h.kinds l
  cases hd : d.node? l <;> cases he : e.node? l <;> simp_all

theorem directory_iff (h : Alike d e) (l : Path) :
    e.node? l = some .directory ↔ d.node? l = some .directory := by
  have hk := h.kinds l
  generalize d.node? l = m at hk ⊢
  generalize e.node? l = n at hk ⊢
  rcases m with _ | ⟨_ | _⟩ <;> rcases n with _ | ⟨_ | _⟩ <;> simp_all [Node.isDirectory]

theorem step_eq (h : Alike d e) (p l : Path) (part : Text) : e.step p l part = d.step p l part := by
  have hk := h.kinds l
  unfold step
  generalize d.node? l = m at hk ⊢
  generalize e.node? l = n at hk ⊢
  rcases m with _ | ⟨_ | _⟩ <;> rcases n with _ | ⟨_ | _⟩ <;> simp_all [Node.isDirectory]

theorem locate_eq (h : Alike d e) (p : Path) : e.locate p = d.locate p := by
  have hs : e.step p = d.step p := funext fun l => funext fun part => h.step_eq p l part
  unfold locate
  rw [hs]

theorem appendable_eq (h : Alike d e) (p : Path) : e.appendable p = d.appendable p := by
  unfold appendable
  rw [h.locate_eq]
  cases d.locate p with
  | error f => rfl
  | ok l => simp only [bind, Except.bind, h.directory_iff l]

theorem isDirectory_eq (h : Alike d e) (p : Path) : e.isDirectory p = d.isDirectory p := by
  unfold isDirectory find?
  rw [h.locate_eq]
  cases d.locate p with
  | error f => rfl
  | ok l => simp [Functor.map, Except.map, h.directory_iff l]

theorem put (h : Alike d e) (l : Path) (n : Node) : Alike (d.put l n) (e.put l n) := by
  refine ⟨by simp [h.refusal?], fun q => ?_⟩
  rw [node?_put, node?_put]
  split
  · rfl
  · split
    · rfl
    · exact h.kinds q

end Alike

/-- Two attempts that fail in the same way or give disks that are alike. -/
inductive Matching : Except Failure Disk → Except Failure Disk → Prop where
  | ok {d e : Disk} (h : Alike d e) : Matching (.ok d) (.ok e)
  | error (f : Failure) : Matching (.error f) (.error f)

theorem Matching.of_ok {y : Except Failure Disk} (h : Matching (.ok d) y) :
    ∃ e, y = .ok e ∧ Alike d e := by
  cases h with
  | ok k => exact ⟨_, rfl, k⟩

theorem Matching.of_error {g : Failure} {y : Except Failure Disk} (h : Matching (.error g) y) :
    y = .error g := by
  cases h
  rfl

/-! Making a directory: it can be made at once, or those on the way to it have to be made first. -/

/-- A failure to make a directory that says that one on the way to it is missing. -/
def Missing (p : Path) (f : Failure) : Prop :=
  ∃ fault, f = .os fault ∧ fault.code = 2 ∧ p.parts ≠ []

theorem Missing.parent_length {g : Failure} (h : Missing p g) :
    p.parent.parts.length < p.parts.length := by
  obtain ⟨-, -, -, hp⟩ := h
  have := List.length_pos_iff.2 hp
  simp only [Path.parent, List.length_dropLast]
  omega

theorem makeAll_of_ok (h : d.makeWithin p = .ok e) : d.makeAll p = (e, none) := by
  rw [makeAll, h]
  rfl

theorem makeAll_of_missing {g : Failure} (h : d.makeWithin p = .error g) (hm : Missing p g) :
    d.makeAll p = match d.makeAll p.parent with
      | (e, none) => e.orSame (e.makeWithin p)
      | failed => failed := by
  obtain ⟨fault, rfl, hc⟩ := hm
  rw [makeAll, h]
  exact (if_pos hc).trans rfl

theorem makeAll_of_failed {g : Failure} (h : d.makeWithin p = .error g) (hm : ¬ Missing p g) :
    d.makeAll p = (d, some g) := by
  rw [makeAll, h]
  cases g with
  | os fault => exact if_neg fun hc => hm ⟨fault, rfl, hc⟩
  | _ => rfl

namespace Alike

theorem makeNew (h : Alike d e) (p : Path) : Matching (d.makeNew p) (e.makeNew p) := by
  unfold Disk.makeNew
  rw [h.locate_eq]
  cases d.locate p with
  | error f => exact .error f
  | ok l =>
    simp only [bind, Except.bind]
    cases hd : d.node? l with
    | none =>
      rw [(h.none_iff l).2 hd]
      exact .ok (h.put l .directory)
    | some n =>
      cases he : e.node? l with
      | none => simp [(h.none_iff l).1 he] at hd
      | some m => exact .error _

theorem unlessThere (h : Alike d e) (p : Path) (f : Failure) :
    Matching (d.unlessThere p f) (e.unlessThere p f) := by
  unfold Disk.unlessThere
  rw [h.isDirectory_eq]
  cases d.isDirectory p with
  | error g => exact .error g
  | ok b =>
    cases b with
    | true => exact .ok h
    | false => exact .error f

theorem makeWithin (h : Alike d e) (p : Path) : Matching (d.makeWithin p) (e.makeWithin p) := by
  have hn := h.makeNew p
  unfold Disk.makeWithin
  cases hd : d.makeNew p with
  | ok d' =>
    rw [hd] at hn
    obtain ⟨e', he, k⟩ := hn.of_ok
    rw [he]
    exact .ok k
  | error g =>
    rw [hd] at hn
    rw [hn.of_error]
    cases g with
    | os fault =>
      dsimp only
      split
      · exact .error _
      · exact h.unlessThere p _
    | _ => exact .error _

private theorem orSame (h : Alike d e) {x y : Except Failure Disk} (hx : Matching x y) :
    (e.orSame y).2 = (d.orSame x).2 ∧ Alike (d.orSame x).1 (e.orSame y).1 := by
  cases hx with
  | ok k => exact ⟨rfl, k⟩
  | error f => exact ⟨rfl, h⟩

/-- Directories are made alike on disks that are alike. -/
theorem makeAll (h : Alike d e) (p : Path) :
    (e.makeAll p).2 = (d.makeAll p).2 ∧ Alike (d.makeAll p).1 (e.makeAll p).1 := by
  have hw := h.makeWithin p
  cases hd : d.makeWithin p with
  | ok d' =>
    rw [hd] at hw
    obtain ⟨e', he, k⟩ := hw.of_ok
    rw [makeAll_of_ok hd, makeAll_of_ok he]
    exact ⟨rfl, k⟩
  | error g =>
    rw [hd] at hw
    by_cases hm : Missing p g
    · rw [makeAll_of_missing hd hm, makeAll_of_missing hw.of_error hm]
      obtain ⟨hf, hk⟩ := makeAll h p.parent
      cases hda : d.makeAll p.parent with
      | mk d' fd =>
        cases hea : e.makeAll p.parent with
        | mk e' fe =>
          rw [hda, hea] at hf hk
          dsimp only at hf hk
          subst hf
          cases fe with
          | none => exact hk.orSame (hk.makeWithin p)
          | some g => exact ⟨rfl, hk⟩
    · rw [makeAll_of_failed hd hm, makeAll_of_failed hw.of_error hm]
      exact ⟨rfl, h⟩

termination_by p.parts.length

decreasing_by exact hm.parent_length

theorem makeDirectory (h : Alike d e) (p : Path) :
    (e.makeDirectory p).2 = (d.makeDirectory p).2 ∧
      Alike (d.makeDirectory p).1 (e.makeDirectory p).1 := by
  unfold Disk.makeDirectory
  rw [h.refusal?]
  split
  · exact ⟨rfl, h⟩
  · exact h.makeAll p

end Alike

/-- Nothing has changed but that directories stand where nothing stood. -/
structure Widened (d e : Disk) : Prop where
  refusal? : e.refusal? = d.refusal?
  nodes : ∀ l, e.node? l = d.node? l ∨ (d.node? l = none ∧ e.node? l = some .directory)

namespace Widened

theorem refl (d : Disk) : Widened d d := ⟨rfl, fun _ => .inl rfl⟩

theorem trans (h : Widened d e) (k : Widened e f) : Widened d f := by
  refine ⟨k.refusal?.trans h.refusal?, fun l => ?_⟩
  rcases h.nodes l with h | ⟨hd, he⟩
  · rw [← h]
    exact k.nodes l
  · rcases k.nodes l with k | ⟨hn, -⟩
    · exact .inr ⟨hd, k.trans he⟩
    · rw [he] at hn
      cases hn

theorem within (h : Widened d e) : Within d e := by
  intro l hl
  rcases h.nodes l with h | ⟨hd, -⟩
  · rw [h, hl]
  · rw [hd] at hl
    cases hl

theorem file (h : Widened d e) {c : Bytes} (hl : d.node? l = some (.file c)) :
    e.node? l = some (.file c) := by
  rcases h.nodes l with h | ⟨hd, -⟩
  · rw [h, hl]
  · rw [hd] at hl
    cases hl

theorem contentOrEmpty (h : Widened d e) (l : Path) : e.contentOrEmpty l = d.contentOrEmpty l := by
  unfold Disk.contentOrEmpty
  rcases h.nodes l with h | ⟨hd, he⟩
  · rw [h]
  · rw [hd, he]

end Widened

theorem makeNew_widened (h : d.makeNew p = .ok e) : Widened d e := by
  obtain ⟨l, -, hn, rfl⟩ := makeNew_eq_ok.1 h
  refine ⟨refusal?_put d l .directory, fun q => ?_⟩
  by_cases hq : q = l
  · subst hq
    exact .inr ⟨hn, node?_put_self d _ (by simp [hn])⟩
  · exact .inl (node?_put_of_ne d _ hq)

theorem makeWithin_widened (h : d.makeWithin p = .ok e) : Widened d e := by
  rcases makeWithin_cases h with hn | ⟨-, rfl⟩
  · exact makeNew_widened hn
  · exact .refl d

private theorem orSame_widened (d : Disk) {x : Except Failure Disk}
    (h : ∀ e, x = .ok e → Widened d e) : Widened d (d.orSame x).1 := by
  cases x with
  | ok e => exact h e rfl
  | error f => exact .refl d

theorem makeAll_widened (d : Disk) (p : Path) : Widened d (d.makeAll p).1 := by
  cases hd : d.makeWithin p with
  | ok e =>
    rw [makeAll_of_ok hd]
    exact makeWithin_widened hd
  | error g =>
    by_cases hm : Missing p g
    · rw [makeAll_of_missing hd hm]
      have hp := makeAll_widened d p.parent
      cases hda : d.makeAll p.parent with
      | mk e fd =>
        rw [hda] at hp
        cases fd with
        | none => exact hp.trans (orSame_widened e fun _ h => makeWithin_widened h)
        | some g => exact hp
    · rw [makeAll_of_failed hd hm]
      exact .refl d

termination_by p.parts.length

decreasing_by exact hm.parent_length

theorem makeDirectory_widened (d : Disk) (p : Path) : Widened d (d.makeDirectory p).1 := by
  unfold makeDirectory
  split
  · exact .refl d
  · exact makeAll_widened d p

/-- The file at a location has got longer, or is as it was; nothing else has changed. -/
structure Grown (l : Path) (d e : Disk) : Prop where
  refusal? : e.refusal? = d.refusal?
  other : ∀ q, q ≠ l → e.node? q = d.node? q
  file : ∃ c s, d.node? l = some (.file c) ∧ e.node? l = some (.file (c ++ s))

namespace Grown

theorem refl {c : Bytes} (h : d.node? l = some (.file c)) : Grown l d d :=
  ⟨rfl, fun _ _ => rfl, c, [], h, by simpa using h⟩

theorem trans (h : Grown l d e) (k : Grown l e f) : Grown l d f := by
  obtain ⟨c, s, hd, he⟩ := h.file
  obtain ⟨c', s', he', hf⟩ := k.file
  rw [he] at he'
  cases he'
  refine ⟨k.refusal?.trans h.refusal?, fun q hq => (k.other q hq).trans (h.other q hq), c, s ++ s',
    hd, ?_⟩
  rw [hf, List.append_assoc]

theorem alike (h : Grown l d e) : Alike d e := by
  refine ⟨h.refusal?, fun q => ?_⟩
  by_cases hq : q = l
  · subst hq
    obtain ⟨c, s, hd, he⟩ := h.file
    rw [hd, he]
    rfl
  · rw [h.other q hq]

theorem contentOrEmpty_of_ne (h : Grown l d e) (hq : q ≠ l) :
    e.contentOrEmpty q = d.contentOrEmpty q := by
  unfold Disk.contentOrEmpty
  rw [h.other q hq]

theorem contentOrEmpty (h : Grown l d e) (q : Path) :
    ∃ s, e.contentOrEmpty q = d.contentOrEmpty q ++ s := by
  by_cases hq : q = l
  · subst hq
    obtain ⟨c, s, hd, he⟩ := h.file
    exact ⟨s, by simp [Disk.contentOrEmpty, hd, he]⟩
  · exact ⟨[], by simp [h.contentOrEmpty_of_ne hq]⟩

end Grown

/-! Appending to a file. -/

theorem append_of_appendable (h : d.appendable p = .ok l) (hr : d.refusal? (.append p) = none)
    (bytes : Bytes) :
    d.append p bytes = (d.put l (.file (d.contentOrEmpty l ++ bytes)), none) := by
  unfold append
  rw [h, hr]

/-- Appending that meets no failure had a file to append to, or a place for one. -/
theorem append_eq_none {bytes : Bytes} (h : (d.append p bytes).2 = none) :
    ∃ l, d.appendable p = .ok l ∧ d.refusal? (.append p) = none := by
  unfold append at h
  split at h
  · cases h
  · rename_i l hl
    split at h
    · cases h
    · rename_i hr
      exact ⟨l, hl, hr⟩

theorem grown_put {c : Bytes} (hn : d.node? l = some (.file c)) (s : Bytes) :
    Grown l d (d.put l (.file (d.contentOrEmpty l ++ s))) := by
  refine ⟨refusal?_put d l _, fun q hq => node?_put_of_ne d _ hq, c, s, hn, ?_⟩
  rw [node?_put_self d _ (by simp [hn])]
  simp [contentOrEmpty, hn]

/-- Whatever comes of appending to a file that is there, that file is all it touches. -/
theorem append_grown {c : Bytes} (hl : d.locate p = .ok l) (hn : d.node? l = some (.file c))
    (bytes : Bytes) : Grown l d (d.append p bytes).1 := by
  have ha : d.appendable p = .ok l := appendable_eq_ok.2 ⟨hl, by simp [hn]⟩
  unfold append
  rw [ha]
  dsimp only
  split
  · split
    · exact .refl hn
    · exact grown_put hn _
  · exact grown_put hn bytes

end Disk
end ClipActions
