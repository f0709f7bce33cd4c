import ClipActions.Text.Utf8
import Mathlib.Data.List.TakeWhile

/-! Which texts have bytes in UTF-8, and where a line feed is among the bytes. -/
namespace ClipActions.Utf8

variable {t u : Text} {bytes : Bytes}

theorem encode?_append (t u : Text) :
    encode? (t ++ u) = (encode? t).bind fun a => (encode? u).map (a ++ ·) := by
  induction t with
  | nil => simp [encode?]
  | cons s t ih =>
    cases s with
    | lone half => rfl
    | char c =>
      simp only [List.cons_append, encode?, ih]
      cases encode? t with
      | none => rfl
      | some a => cases encode? u <;> simp

theorem encode?_append_eq_some : encode? (t ++ u) = some bytes ↔
    ∃ a b, encode? t = some a ∧ encode? u = some b ∧ a ++ b = bytes := by
  rw [encode?_append]
  simp [Option.bind_eq_some_iff]

/-- A text has bytes if it holds no lone surrogate. -/
theorem isSome_encode? (h : ∀ s ∈ t, s.isLone = false) : ∃ bytes, encode? t = some bytes := by
  induction t with
  | nil => exact ⟨[], rfl⟩
  | cons s t ih =>
    obtain ⟨bytes, hb⟩ := ih fun r hr => h r (List.mem_cons_of_mem s hr)
    cases s with
    | char c => exact ⟨encodeCode c.toNat ++ bytes, by simp [encode?, hb]⟩
    | lone half =>
      have := h (.lone half) List.mem_cons_self
      simp [Symbol.isLone] at this

theorem obstacleWhere?_eq_none {bad : Symbol → Bool} :
    obstacleWhere? bad t = none ↔ ∀ s ∈ t, bad s = false := by
  simp [obstacleWhere?, List.head?_eq_none_iff, List.dropWhile_eq_nil_iff]

/-- What has no bytes has an obstacle. -/
theorem obstacle?_of_encode?_eq_none (h : encode? t = none) : ∃ o, obstacle? t = some o := by
  cases ho : obstacle? t with
  | some o => exact ⟨o, rfl⟩
  | none =>
    obtain ⟨bytes, hb⟩ := isSome_encode? (obstacleWhere?_eq_none.1 ho)
    rw [hb] at h
    cases h

private theorem ofNat_ne {n : Nat} (h : n % 256 ≠ 10) : n.toUInt8 ≠ 10 := by
  intro he
  have := congrArg UInt8.toNat he
  simp only [Nat.toUInt8, UInt8.toNat_ofNat'] at this
  exact h this

/-- The code points of characters. -/
theorem toNat_lt (c : Char) : c.toNat < 0x110000 := by
  rcases c.valid with h | h <;> simp only [Char.toNat, UInt32.toNat] at * <;> omega

/-- No byte of another code point than the line feed looks like one. -/
theorem ten_notMem_encodeCode {n : Nat} (h : 0x20 ≤ n) (hn : n < 0x110000) :
    10 ∉ encodeCode n := by
  unfold encodeCode
  dsimp only
  have hmod : ∀ k, n / Nat.pow 64 k % 64 < 64 := fun k => Nat.mod_lt _ (by decide)
  have htail : ∀ k, (0x80 + n / Nat.pow 64 k % 64).toUInt8 ≠ 10 := by
    intro k
    have := hmod k
    exact ofNat_ne (by omega)
  split
  · simpa using (ofNat_ne (n := n) (by omega)).symm
  split
  · simp only [List.mem_cons, List.not_mem_nil, or_false, not_or]
    exact ⟨(ofNat_ne (by omega)).symm, (htail 0).symm⟩
  split
  · simp only [List.mem_cons, List.not_mem_nil, or_false, not_or]
    exact ⟨(ofNat_ne (by omega)).symm, (htail 1).symm, (htail 0).symm⟩
  · simp only [List.mem_cons, List.not_mem_nil, or_false, not_or]
    exact ⟨(ofNat_ne (by omega)).symm, (htail 2).symm, (htail 1).symm, (htail 0).symm⟩

theorem ten_notMem_encode? (ht : ∀ s ∈ t, 0x20 ≤ s.code) (h : encode? t = some bytes) :
    10 ∉ bytes := by
  induction t generalizing bytes with
  | nil =>
    cases h
    simp
  | cons s t ih =>
    cases s with
    | lone half => cases h
    | char c =>
      simp only [encode?, Option.map_eq_map, Option.map_eq_some_iff] at h
      obtain ⟨rest, hr, rfl⟩ := h
      have h20 : 0x20 ≤ c.toNat := ht (.char c) List.mem_cons_self
      rw [List.mem_append, not_or]
      exact ⟨ten_notMem_encodeCode h20 (toNat_lt c),
        ih (fun r hm => ht r (List.mem_cons_of_mem _ hm)) hr⟩

end ClipActions.Utf8
