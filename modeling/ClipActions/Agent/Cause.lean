import ClipActions.Value

/-!
Chains of errors. Each error may name the one that caused it and the one during which it arose; the
chain of an error follows the cause if there is one and the other link otherwise. Chains may run in
circles.
-/
namespace ClipActions.Agent

/-- An error of a chain: its operating-system number if it has one, which may be any value, and its
two links. -/
structure Cause.Link where
  errno? : Option Data := none
  cause? : Option Nat := none
  context? : Option Nat := none

/-- Errors that refer to each other by their places in a list. -/
structure Cause where
  links : List Cause.Link

namespace Cause

/-- The error that the chain goes on with. -/
def Link.next? (l : Link) : Option Nat := l.cause?.orElse fun _ => l.context?

/-- The errors of the chain from one on, up to its end or to where it meets itself. -/
def trail (c : Cause) (unseen : List Nat) (i : Nat) : List Nat :=
  if _ : i ∈ unseen then
    match c.links[i]? with
    | none => []
    | some l =>
      match l.next? with
      | none => [i]
      | some j => i :: trail c (unseen.erase i) j
  else []
termination_by unseen.length
decreasing_by
  rw [List.length_erase_of_mem ‹_›]
  have := List.length_pos_of_mem ‹i ∈ unseen›
  omega

/-- The first operating-system number on the chain of the first error. -/
def errno? (c : Cause) : Option Data :=
  (c.trail (List.range c.links.length) 0).findSome? fun i => (c.links[i]?).bind (·.errno?)

end Cause
end ClipActions.Agent
