import ClipActions.Agent.Cause
import Mathlib.Data.List.Basic

/-!
The chain of an error. The walk along it leaves out of account every error that it has seen, so it ends
on a chain that runs in a circle; still it finds the number that a walk without end would come to
first, because such a walk never passes an error twice before it.
-/
namespace ClipActions.Agent.Cause

variable {c : Cause} {n m : Data} {i j k k' : Nat} {unseen : List Nat}

/-- The chain from an error on comes to a number after so many links, past errors without one. -/
inductive Reaches (c : Cause) (n : Data) : Nat → Nat → Prop where
  | here {i : Nat} {l : Link} (hl : c.links[i]? = some l) (hn : l.errno? = some n) :
      Reaches c n 0 i
  | next {k i j : Nat} {l : Link} (hl : c.links[i]? = some l) (hnone : l.errno? = none)
      (hj : l.next? = some j) (h : Reaches c n k j) : Reaches c n (k + 1) i

/-- A number is the first on the chain of an error. -/
def First (c : Cause) (i : Nat) (n : Data) : Prop := ∃ k, Reaches c n k i

theorem Reaches.lt_length (h : Reaches c n k i) : i < c.links.length := by
  cases h with
  | here hl _ => exact (List.getElem?_eq_some_iff.1 hl).1
  | next hl _ _ _ => exact (List.getElem?_eq_some_iff.1 hl).1

/-- There is one way along the chain, so an error stands at one distance from the number. -/
theorem Reaches.unique (h : Reaches c n k i) (h' : Reaches c m k' i) : k = k' ∧ n = m := by
  induction h generalizing k' with
  | here hl hn =>
    cases h' with
    | here hl' hn' =>
      rw [hl] at hl'
      cases hl'
      exact ⟨rfl, Option.some.inj (hn.symm.trans hn')⟩
    | next hl' hnone _ _ =>
      rw [hl] at hl'
      cases hl'
      rw [hn] at hnone
      cases hnone
  | next hl hnone hj _ ih =>
    cases h' with
    | here hl' hn' =>
      rw [hl] at hl'
      cases hl'
      rw [hn'] at hnone
      cases hnone
    | next hl' _ hj' h' =>
      rw [hl] at hl'
      cases hl'
      rw [hj] at hj'
      cases hj'
      obtain ⟨hk, hn⟩ := ih h'
      exact ⟨congrArg (· + 1) hk, hn⟩

/-- The first number among the errors of a walk. -/
def numberOn (c : Cause) (walk : List Nat) : Option Data :=
  walk.findSome? fun i => (c.links[i]?).bind (·.errno?)

theorem numberOn_cons {l : Link} (hl : c.links[i]? = some l) (walk : List Nat) :
    c.numberOn (i :: walk) = l.errno?.or (c.numberOn walk) := by
  rw [numberOn, List.findSome?_cons, hl, Option.bind_some]
  cases l.errno? <;> rfl

/-- What the walk finds is on the chain. -/
theorem first_of_numberOn (h : c.numberOn (c.trail unseen i) = some n) : First c i n := by
  fun_induction trail c unseen i with
  | case1 unseen i hi hl => cases h
  | case2 unseen i hi l hl hnext =>
    rw [numberOn_cons hl, show c.numberOn [] = none from rfl, Option.or_none] at h
    exact ⟨0, .here hl h⟩
  | case3 unseen i hi l hl j hj ih =>
    rw [numberOn_cons hl] at h
    cases hn : l.errno? with
    | some m =>
      rw [hn] at h
      cases h
      exact ⟨0, .here hl hn⟩
    | none =>
      rw [hn, Option.none_or] at h
      obtain ⟨k, hk⟩ := ih h
      exact ⟨k + 1, .next hl hn hj hk⟩
  | case4 unseen i hi => cases h

/-- The walk finds a number that is on the chain if it has not yet seen an error that stands at most
as far from it as where it begins. -/
theorem numberOn_of_reaches (h : Reaches c n k i)
    (hunseen : ∀ k' ≤ k, ∀ j, Reaches c n k' j → j ∈ unseen) :
    c.numberOn (c.trail unseen i) = some n := by
  induction h generalizing unseen with
  | @here i l hl hn =>
    have hi : i ∈ unseen := hunseen 0 (Nat.le_refl 0) i (.here hl hn)
    unfold trail
    simp only [hi, hl, dite_true]
    cases l.next? <;> simp only [numberOn_cons hl, hn, Option.some_or]
  | @next k i j l hl hnone hj hrest ih =>
    have hthis : Reaches c n (k + 1) i := .next hl hnone hj hrest
    have hi : i ∈ unseen := hunseen (k + 1) (Nat.le_refl _) i hthis
    unfold trail
    simp only [hi, hl, hj, dite_true]
    rw [numberOn_cons hl, hnone, Option.none_or]
    apply ih
    intro k' hk' j' hj'
    -- What stands nearer to the number is another error than this one.
    have hother : j' ≠ i := by
      rintro rfl
      have := (hj'.unique hthis).1
      omega
    exact (List.mem_erase_of_ne hother).2 (hunseen k' (by omega) j' hj')

/-- The number of an error is the first one on its chain, whether or not the chain runs in a circle. -/
theorem errno?_eq_some : c.errno? = some n ↔ First c 0 n := by
  constructor
  · exact first_of_numberOn
  · rintro ⟨k, h⟩
    exact numberOn_of_reaches h fun _ _ _ hj => List.mem_range.2 hj.lt_length

end ClipActions.Agent.Cause
