import ClipActions.Host
import ClipActions.Proofs.Text.Positional

/-!
Identifiers of runs give away what they are made of: the milliseconds of the clock, whose notation is
canonical and keeps the order of time, and the six digits that have been drawn.
-/
namespace ClipActions

/-- The numbers that the next identifier of a run draws. -/
def Host.nextDraws (h : Host) : List Nat :=
  (List.range RunId.suffixLength).map fun i =>
    match h.draws with
    | [] => 0
    | draws => draws.getD ((h.drawn + i) % draws.length) 0

namespace RunId

variable {i j : Instant} {ds es : List Nat}

theorem length_nextDraws (h : Host) : h.nextDraws.length = suffixLength := by
  rw [Host.nextDraws, List.length_map, List.length_range]

theorem result_newRunId (h : Host) : Job.newRunId.result h =
    (.ok (make h.now h.nextDraws), { h with drawn := h.drawn + suffixLength }) := rfl

theorem millis_nonneg (hi : 0 ≤ i.micros) : 0 ≤ i.millis := by
  rw [Instant.millis, Int.fdiv_eq_ediv_of_nonneg _ (by decide)]
  omega

/-- Behind as many digits on either side the dashes stand at one place from the end, so each part of an
identifier is that of the other. -/
theorem make_eq_iff (hi : 0 ≤ i.micros) (hj : 0 ≤ j.micros) (hlen : ds.length = es.length) :
    make i ds = make j es ↔ i.millis = j.millis ∧ ds.map pick = es.map pick := by
  constructor
  · intro h
    have hsuffix : (ds.map pick).length = (es.map pick).length := by
      rw [List.length_map, List.length_map, hlen]
    obtain ⟨hfront, hdrawn⟩ := List.append_inj' h hsuffix
    have htime := Radix.write_injective (by decide) (by decide) (List.append_cancel_right hfront)
    have hleft := millis_nonneg hi
    have hright := millis_nonneg hj
    exact ⟨by omega, hdrawn⟩
  · rintro ⟨htime, hdrawn⟩
    rw [make, make, htime, hdrawn]

/-- The notation of a number in base 36 is the one text of digits that no superfluous zero begins and
that has its value, the notations come in the order of the numbers, and two identifiers that are made
are the same just if the milliseconds of their clocks and their six digits are. -/
theorem encodes_parts :
    (∀ (n : Nat) (t : Text), t = Radix.write 36 n ↔ Radix.number? 36 t = some n ∧ Radix.Trim t) ∧
    (∀ m n : Nat, m < n ↔ (Radix.write 36 m).Precedes (Radix.write 36 n)) ∧
    ∀ h k : Host, 0 ≤ h.now.micros → 0 ≤ k.now.micros → ∃ s t,
      (Job.newRunId.result h).1 = .ok s ∧ (Job.newRunId.result k).1 = .ok t ∧
      (h.nextDraws.map pick).length = 6 ∧ (k.nextDraws.map pick).length = 6 ∧
      (s = t ↔ h.now.millis = k.now.millis ∧ h.nextDraws.map pick = k.nextDraws.map pick) := by
  refine ⟨fun n t => ?_, fun m n => ?_, fun h k hh hk => ?_⟩
  · exact Radix.eq_write_iff (by decide) (by decide)
  · exact (Radix.precedes_iff (by decide) (by decide)).symm
  · have hlen : h.nextDraws.length = k.nextDraws.length := by
      rw [length_nextDraws, length_nextDraws]
    refine ⟨make h.now h.nextDraws, make k.now k.nextDraws, ?_, ?_, ?_, ?_, make_eq_iff hh hk hlen⟩
    · rw [result_newRunId]
    · rw [result_newRunId]
    · rw [List.length_map, length_nextDraws]
      rfl
    · rw [List.length_map, length_nextDraws]
      rfl

/-- Two readings of the clock within one millisecond, and two drawn numbers that pick one digit, give
one identifier. -/
theorem encodes_parts_colliding :
    let h : Host := { now := ⟨1767323045678901⟩, draws := [7] }
    let k : Host := { now := ⟨1767323045678000⟩, draws := [43] }
    0 ≤ h.now.micros ∧ 0 ≤ k.now.micros ∧
      ∃ s, (Job.newRunId.result h).1 = .ok s ∧ (Job.newRunId.result k).1 = .ok s := by
  intro h k
  have hh : 0 ≤ h.now.micros := by decide
  have hk : 0 ≤ k.now.micros := by decide
  obtain ⟨s, t, hs, ht, -, -, hsame⟩ := encodes_parts.2.2 h k hh hk
  have hst : s = t := hsame.2 ⟨by decide, by decide⟩
  exact ⟨hh, hk, s, hs, hst ▸ ht⟩

end RunId
end ClipActions
