import ClipActions.Proofs.Agent.Chain

/-!
The walk along the chain of an error. It comes past each error at most once, in the order of the chain,
and ends where the chain ends or comes back to an error that it has passed.
-/
namespace ClipActions.Agent.Cause

variable {c : Cause} {n : Data} {d i j k : Nat} {unseen : List Nat}

def walk (c : Cause) : List Nat := c.trail (List.range c.links.length) 0

def number? (c : Cause) (i : Nat) : Option Data := (c.links[i]?).bind (·.errno?)

/-- The error that stands so many links behind another one, where each error is followed by its cause
if it has one and otherwise by the error during which it arose; none behind the last one. -/
def behind? (c : Cause) : Nat → Nat → Option Nat
  | i, 0 => (c.links[i]?).map fun _ => i
  | i, k + 1 =>
    match c.links[i]? with
    | some { cause? := some j, .. } => c.behind? j k
    | some { cause? := none, context? := some j, .. } => c.behind? j k
    | _ => none

/-- No error that stands fewer links behind another one has a number. -/
def Unnumbered (c : Cause) (i k : Nat) : Prop :=
  ∀ k' < k, ∀ j, c.behind? i k' = some j → c.number? j = none

/-- The chain ends before so many links, or it has come back to an error that it has passed. -/
def Exhausted (c : Cause) (i k : Nat) : Prop :=
  c.behind? i k = none ∨ ∃ k' < k, c.behind? i k' = c.behind? i k

/-! The chain, one link after another. -/

theorem behind?_zero {l : Link} (hl : c.links[i]? = some l) : c.behind? i 0 = some i := by
  rw [behind?, hl]
  rfl

theorem behind?_dangling (hl : c.links[i]? = none) (k : Nat) : c.behind? i k = none := by
  cases k with
  | zero => rw [behind?, hl, Option.map_none]
  | succ k => rw [behind?, hl]

theorem behind?_succ {l : Link} (hl : c.links[i]? = some l) (k : Nat) :
    c.behind? i (k + 1) = l.next?.bind fun j => c.behind? j k := by
  obtain ⟨number, cause, context⟩ := l
  rw [behind?, hl]
  cases cause with
  | some j => rfl
  | none =>
    cases context with
    | some j => rfl
    | none => rfl

theorem lt_of_behind? (h : c.behind? i k = some j) : j < c.links.length := by
  induction k generalizing i with
  | zero =>
    obtain ⟨l, hl, rfl⟩ := Option.map_eq_some_iff.1 h
    exact (List.getElem?_eq_some_iff.1 hl).1
  | succ k ih =>
    cases hl : c.links[i]? with
    | none => rw [behind?_dangling hl] at h; cases h
    | some l =>
      rw [behind?_succ hl] at h
      obtain ⟨m, -, hm⟩ := Option.bind_eq_some_iff.1 h
      exact ih hm

/-- A number is the first on a chain after so many links. -/
theorem reaches_iff : Reaches c n k i ↔
    (∃ j, c.behind? i k = some j ∧ c.number? j = some n) ∧ c.Unnumbered i k := by
  constructor
  · intro h
    induction h with
    | @here i l hl hn =>
      refine ⟨⟨i, behind?_zero hl, ?_⟩, fun k' hk' => absurd hk' (Nat.not_lt_zero k')⟩
      rw [number?, hl, Option.bind_some, hn]
    | @next k i j l hl hnone hj _ ih =>
      obtain ⟨⟨m, hm, hn⟩, hbefore⟩ := ih
      refine ⟨⟨m, ?_, hn⟩, fun k' hk' m' hm' => ?_⟩
      · rw [behind?_succ hl, hj, Option.bind_some, hm]
      · cases k' with
        | zero =>
          rw [behind?_zero hl] at hm'
          cases hm'
          rw [number?, hl, Option.bind_some, hnone]
        | succ k' =>
          rw [behind?_succ hl, hj, Option.bind_some] at hm'
          exact hbefore k' (by omega) m' hm'
  · rintro ⟨⟨m, hm, hn⟩, hbefore⟩
    induction k generalizing i with
    | zero =>
      obtain ⟨l, hl, rfl⟩ := Option.map_eq_some_iff.1 hm
      rw [number?, hl, Option.bind_some] at hn
      exact .here hl hn
    | succ k ih =>
      cases hl : c.links[i]? with
      | none => rw [behind?_dangling hl] at hm; cases hm
      | some l =>
        have hnone : l.errno? = none := by
          have := hbefore 0 (by omega) i (behind?_zero hl)
          rwa [number?, hl, Option.bind_some] at this
        rw [behind?_succ hl] at hm
        obtain ⟨j, hj, hm⟩ := Option.bind_eq_some_iff.1 hm
        have hrest : c.Unnumbered j k := by
          intro k' hk' m' hm'
          apply hbefore (k' + 1) (by omega) m'
          rw [behind?_succ hl, hj, Option.bind_some, hm']
        exact .next hl hnone hj (ih hrest hm)

/-- On the way to a number the chain neither ends nor comes back to an error. -/
theorem Reaches.behind (h : Reaches c n (d + k) i) : ∃ j, c.behind? i k = some j ∧ Reaches c n d j := by
  induction k generalizing i with
  | zero =>
    have hi := h.lt_length
    exact ⟨i, behind?_zero (List.getElem?_eq_getElem hi), h⟩
  | succ k ih =>
    cases h with
    | next hl _ hj hrest =>
      obtain ⟨j, hbehind, hreach⟩ := ih hrest
      refine ⟨j, ?_, hreach⟩
      rw [behind?_succ hl, hj, Option.bind_some, hbehind]

theorem Reaches.not_exhausted (h : Reaches c n (d + k) i) : ¬ c.Exhausted i k := by
  obtain ⟨j, hj, hreach⟩ := h.behind
  rintro (hend | ⟨k', hk', hsame⟩)
  · rw [hj] at hend
    cases hend
  · have hsplit : d + k = (d + (k - k')) + k' := by omega
    rw [hsplit] at h
    obtain ⟨j', hj', hreach'⟩ := h.behind
    rw [hj', hj] at hsame
    cases hsame
    have := (hreach.unique hreach').1
    omega

/-! The walk. -/

theorem mem_of_mem_trail (h : j ∈ c.trail unseen i) : j ∈ unseen := by
  fun_induction trail c unseen i with
  | case1 unseen i hi hl => cases h
  | case2 unseen i hi l hl hnext =>
    rw [List.mem_singleton] at h
    exact h ▸ hi
  | case3 unseen i hi l hl m hm ih =>
    rcases List.mem_cons.1 h with rfl | h
    · exact hi
    · exact List.mem_of_mem_erase (ih h)
  | case4 unseen i hi => cases h

theorem nodup_trail (hunseen : unseen.Nodup) : (c.trail unseen i).Nodup := by
  fun_induction trail c unseen i with
  | case1 unseen i hi hl => exact List.nodup_nil
  | case2 unseen i hi l hl hnext => exact List.nodup_cons.2 ⟨List.not_mem_nil, List.nodup_nil⟩
  | case3 unseen i hi l hl m hm ih =>
    refine List.nodup_cons.2 ⟨fun h => ?_, ih (hunseen.erase i)⟩
    exact hunseen.not_mem_erase (mem_of_mem_trail h)
  | case4 unseen i hi => exact List.nodup_nil

/-- Each step of the walk leaves an error less to come past. -/
theorem length_trail_le : (c.trail unseen i).length ≤ unseen.length := by
  fun_induction trail c unseen i with
  | case1 unseen i hi hl => exact Nat.zero_le _
  | case2 unseen i hi l hl hnext => exact List.length_pos_of_mem hi
  | case3 unseen i hi l hl m hm ih =>
    have hpos := List.length_pos_of_mem hi
    rw [List.length_erase_of_mem hi] at ih
    rw [List.length_cons]
    omega
  | case4 unseen i hi => exact Nat.zero_le _

/-- The walk takes the errors in the order of the chain. -/
theorem behind?_of_trail (h : (c.trail unseen i)[k]? = some j) : c.behind? i k = some j := by
  fun_induction trail c unseen i generalizing k with
  | case1 unseen i hi hl => cases h
  | case2 unseen i hi l hl hnext =>
    cases k with
    | zero =>
      cases h
      exact behind?_zero hl
    | succ k => cases h
  | case3 unseen i hi l hl m hm ih =>
    cases k with
    | zero =>
      cases h
      exact behind?_zero hl
    | succ k =>
      rw [List.getElem?_cons_succ] at h
      rw [behind?_succ hl, hm, Option.bind_some, ih h]
  | case4 unseen i hi => cases h

/-- Behind the walk stands no error, or one that the walk has passed or was not to pass. -/
theorem behind?_length_trail (h : c.behind? i (c.trail unseen i).length = some j) :
    j ∈ c.trail unseen i ∨ j ∉ unseen := by
  fun_induction trail c unseen i with
  | case1 unseen i hi hl =>
    rw [behind?_dangling hl] at h
    cases h
  | case2 unseen i hi l hl hnext =>
    rw [List.length_singleton, behind?_succ hl, hnext] at h
    cases h
  | case3 unseen i hi l hl m hm ih =>
    rw [List.length_cons, behind?_succ hl, hm, Option.bind_some] at h
    rcases ih h with hpassed | hseen
    · exact .inl (List.mem_cons_of_mem i hpassed)
    · by_cases hji : j = i
      · exact .inl (hji ▸ List.mem_cons_self)
      · exact .inr fun hj => hseen ((List.mem_erase_of_ne hji).2 hj)
  | case4 unseen i hi =>
    obtain ⟨l, hl, rfl⟩ := Option.map_eq_some_iff.1 h
    exact .inr hi

theorem exhausted_walk (c : Cause) : c.Exhausted 0 c.walk.length := by
  cases hend : c.behind? 0 c.walk.length with
  | none => exact .inl hend
  | some j =>
    have hknown : j ∈ List.range c.links.length := List.mem_range.2 (lt_of_behind? hend)
    have hpassed : j ∈ c.walk :=
      (behind?_length_trail hend).resolve_right fun h => h hknown
    obtain ⟨k, hk, hj⟩ := List.getElem_of_mem hpassed
    refine .inr ⟨k, hk, ?_⟩
    rw [hend]
    exact behind?_of_trail (List.getElem?_eq_some_iff.2 ⟨hk, hj⟩)

/-- The number that is found is that of the first error on the chain that has one. -/
theorem errno?_eq_some_behind : c.errno? = some n ↔
    ∃ k i, c.behind? 0 k = some i ∧ c.number? i = some n ∧ c.Unnumbered 0 k := by
  rw [errno?_eq_some, First]
  constructor
  · rintro ⟨k, h⟩
    obtain ⟨⟨i, hi, hn⟩, hbefore⟩ := reaches_iff.1 h
    exact ⟨k, i, hi, hn, hbefore⟩
  · rintro ⟨k, i, hi, hn, hbefore⟩
    exact ⟨k, reaches_iff.2 ⟨⟨i, hi, hn⟩, hbefore⟩⟩

/-- The walk has come past every error of the chain when it ends, so it misses no number. -/
theorem unnumbered_of_none (h : c.errno? = none) : c.Unnumbered 0 c.walk.length := by
  intro k hk i hi
  have hwalk : c.behind? 0 k = some c.walk[k] := behind?_of_trail (List.getElem?_eq_getElem hk)
  rw [hwalk] at hi
  cases hi
  exact List.findSome?_eq_none_iff.1 h _ (List.getElem_mem hk)

/-- A number stands neither on the part of a chain that has none nor behind all of it. -/
theorem none_of_exhausted (hk : c.Exhausted 0 k) (hbefore : c.Unnumbered 0 k) : c.errno? = none := by
  rw [Option.eq_none_iff_forall_ne_some]
  intro n hn
  obtain ⟨k', h⟩ := errno?_eq_some.1 hn
  rcases Nat.lt_or_ge k' k with hlt | hge
  · obtain ⟨⟨i, hi, hnumber⟩, -⟩ := reaches_iff.1 h
    rw [hbefore k' hlt i hi] at hnumber
    cases hnumber
  · have hsplit : k' = (k' - k) + k := by omega
    rw [hsplit] at h
    exact h.not_exhausted hk

/-- The search for the number of an error comes past every error at most once, in the order of its
chain. It finds the number of the first error on the chain that has one, and finds none just if the
chain ends, or comes back to an error, without one. -/
theorem walk_finds_first (c : Cause) :
    (c.errno? = c.walk.findSome? c.number? ∧ c.walk.Nodup ∧ c.walk.length ≤ c.links.length ∧
      ∀ k i, c.walk[k]? = some i → c.behind? 0 k = some i) ∧
    (∀ n, c.errno? = some n ↔
      ∃ k i, c.behind? 0 k = some i ∧ c.number? i = some n ∧ c.Unnumbered 0 k) ∧
    (c.errno? = none ↔ ∃ k, c.Exhausted 0 k ∧ c.Unnumbered 0 k) := by
  have hlength : c.walk.length ≤ (List.range c.links.length).length := length_trail_le
  rw [List.length_range] at hlength
  refine ⟨⟨rfl, nodup_trail List.nodup_range, hlength, fun k i => behind?_of_trail⟩,
    fun n => errno?_eq_some_behind, ?_⟩
  constructor
  · intro hnone
    exact ⟨c.walk.length, exhausted_walk c, unnumbered_of_none hnone⟩
  · rintro ⟨k, hexhausted, hbefore⟩
    exact none_of_exhausted hexhausted hbefore

end ClipActions.Agent.Cause
