import ClipActions.Proofs.Text.Encoding

/-!
Reading UTF-8. What has been written is read back, and an ASCII character is read from its own byte
alone, whatever stands around it, so a text can be read line by line.
-/
namespace ClipActions

theorem Symbol.not_surrogate (c : Char) : ¬ (0xD800 ≤ c.toNat ∧ c.toNat < 0xE000) := by
  rcases c.valid with h | h <;> simp only [Char.toNat, UInt32.toNat] at * <;> omega

theorem Symbol.ofCode_toNat (c : Char) : ofCode c.toNat = .char c := by
  have hvalid : c.toNat.isValidChar := c.valid
  unfold ofCode
  rw [dif_neg (not_surrogate c), dif_pos hvalid]
  rfl

theorem Symbol.ofCode_code {s : Symbol} (h : s.code < 0xD800) : ofCode s.code = s := by
  cases s with
  | char c => exact ofCode_toNat c
  | lone half => exact absurd h (Nat.not_lt.2 (Nat.le_add_right _ _))

theorem Symbol.code_ofCode {n : Nat} (h : n < 0xD800) : (ofCode n).code = n := by
  unfold ofCode
  rw [dif_neg (by omega), dif_pos (Or.inl h)]
  rfl

/-- A code point that is not ASCII is read as one that is not. -/
theorem Symbol.le_code_ofCode {n : Nat} (h : 0x80 ≤ n) : 0x80 ≤ (ofCode n).code := by
  unfold ofCode
  by_cases hlone : 0xD800 ≤ n ∧ n < 0xE000
  · rw [dif_pos hlone, code]
    omega
  · rw [dif_neg hlone]
    by_cases hvalid : n.isValidChar
    · rw [dif_pos hvalid]
      exact h
    · rw [dif_neg hvalid]
      decide

namespace Utf8

variable {t : Text} {bytes rest : Bytes} {s : Symbol} {need code low high n q r : Nat}

private theorem toNat_toUInt8 (h : n < 256) : n.toUInt8.toNat = n := by
  simp only [Nat.toUInt8, UInt8.toNat_ofNat']
  omega

theorem decodeFrom_one (hn : n < 256) (hl : lead? false n = some (.inl s)) (rest : Bytes) :
    decodeFrom .between (n.toUInt8 :: rest) = s :: decodeFrom .between rest := by
  rw [decodeFrom, toNat_toUInt8 hn, stepLenient, openLenient, hl]
  rfl

theorem decodeFrom_lead {state : State} (hn : n < 256) (hl : lead? false n = some (.inr state))
    (rest : Bytes) : decodeFrom .between (n.toUInt8 :: rest) = decodeFrom state rest := by
  rw [decodeFrom, toNat_toUInt8 hn, stepLenient, openLenient, hl]
  rfl

theorem decodeFrom_more (hn : n < 256) (hr : low ≤ n ∧ n ≤ high) (rest : Bytes) :
    decodeFrom (.inside (need + 2) code low high) (n.toUInt8 :: rest) =
      decodeFrom (.inside (need + 1) (code * 64 + n % 64) 0x80 0xBF) rest := by
  rw [decodeFrom, toNat_toUInt8 hn, stepLenient, if_pos hr, if_neg (by omega)]
  rfl

theorem decodeFrom_last (hn : n < 256) (hr : low ≤ n ∧ n ≤ high) (rest : Bytes) :
    decodeFrom (.inside 1 code low high) (n.toUInt8 :: rest) =
      .ofCode (code * 64 + n % 64) :: decodeFrom .between rest := by
  rw [decodeFrom, toNat_toUInt8 hn, stepLenient, if_pos hr, if_pos (by omega)]
  rfl

/-! What the first byte of a character leaves to read, and that the byte behind it is among that. A
code point below the bound of its length has a shorter form, which is not read. -/

theorem lead?_two (hlow : 2 ≤ q) (hq : q < 32) :
    lead? false (0xC0 + q) = some (.inr (.inside 1 q 0x80 0xBF)) := by
  rw [lead?, if_neg (by omega), if_neg (by omega), if_pos (by omega), Nat.add_sub_cancel_left]

theorem lead?_three (hq : q < 16) (hr : r < 64) (hlow : q = 0 → 0x20 ≤ r)
    (hhigh : q = 13 → r < 0x20) : ∃ low high,
      lead? false (0xE0 + q) = some (.inr (.inside 2 q low high)) ∧
        low ≤ 0x80 + r ∧ 0x80 + r ≤ high := by
  rw [lead?, if_neg (by omega), if_neg (by omega), if_neg (by omega), if_pos (by omega),
    Nat.add_sub_cancel_left]
  refine ⟨_, _, rfl, ?_, ?_⟩
  · split <;> omega
  · split <;> omega

theorem lead?_four (hq : q < 5) (hr : r < 64) (hlow : q = 0 → 0x10 ≤ r)
    (hhigh : q = 4 → r < 0x10) : ∃ low high,
      lead? false (0xF0 + q) = some (.inr (.inside 3 q low high)) ∧
        low ≤ 0x80 + r ∧ 0x80 + r ≤ high := by
  rw [lead?, if_neg (by omega), if_neg (by omega), if_neg (by omega), if_neg (by omega),
    if_pos (by omega), Nat.add_sub_cancel_left]
  refine ⟨_, _, rfl, ?_, ?_⟩
  · split <;> omega
  · split <;> omega

/-- A character is read from its bytes, whatever follows them. -/
theorem decodeFrom_encodeCode (c : Char) (rest : Bytes) :
    decodeFrom .between (encodeCode c.toNat ++ rest) = .char c :: decodeFrom .between rest := by
  have hcode := Symbol.ofCode_toNat c
  have hmax := toNat_lt c
  have hrange := Symbol.not_surrogate c
  generalize c.toNat = n at hcode hmax hrange ⊢
  have hzero : n / Nat.pow 64 0 = n := Nat.div_one n
  have hone : n / Nat.pow 64 1 = n / 64 := rfl
  have htwo : n / Nat.pow 64 2 = n / 4096 := rfl
  unfold encodeCode
  simp only [hzero, hone, htwo]
  split
  · rename_i h
    have hl : lead? false n = some (.inl (.char c)) := by
      rw [lead?, if_pos h, hcode]
    exact decodeFrom_one (by omega) hl rest
  split
  · have hl := lead?_two (q := n / 64) (by omega) (by omega)
    have hn : n / 64 * 64 + (0x80 + n % 64) % 64 = n := by omega
    rw [List.cons_append, decodeFrom_lead (by omega) hl, List.cons_append,
      decodeFrom_last (by omega) (by omega), hn, hcode]
    rfl
  split
  · obtain ⟨low, high, hl, hr⟩ := lead?_three (q := n / 4096) (r := n / 64 % 64) (by omega)
      (Nat.mod_lt _ (by decide)) (by omega) (by omega)
    have hn : (n / 4096 * 64 + (0x80 + n / 64 % 64) % 64) * 64 + (0x80 + n % 64) % 64 = n := by
      omega
    rw [List.cons_append, decodeFrom_lead (by omega) hl, List.cons_append,
      decodeFrom_more (by omega) hr, List.cons_append, decodeFrom_last (by omega) (by omega), hn,
      hcode]
    rfl
  · obtain ⟨low, high, hl, hr⟩ := lead?_four (q := n / 262144) (r := n / 4096 % 64) (by omega)
      (Nat.mod_lt _ (by decide)) (by omega) (by omega)
    have hn : ((n / 262144 * 64 + (0x80 + n / 4096 % 64) % 64) * 64 +
        (0x80 + n / 64 % 64) % 64) * 64 + (0x80 + n % 64) % 64 = n := by omega
    rw [List.cons_append, decodeFrom_lead (by omega) hl, List.cons_append,
      decodeFrom_more (by omega) hr, List.cons_append, decodeFrom_more (by omega) (by omega),
      List.cons_append, decodeFrom_last (by omega) (by omega), hn, hcode]
    rfl

/-- A text is read back from its bytes, whatever follows them. -/
theorem decode_append (h : encode? t = some bytes) (rest : Bytes) :
    decode (bytes ++ rest) = t ++ decode rest := by
  induction t generalizing bytes with
  | nil =>
    cases h
    rfl
  | cons s t ih =>
    cases s with
    | lone half => cases h
    | char c =>
      simp only [encode?, Option.map_eq_map, Option.map_eq_some_iff] at h
      obtain ⟨more, hm, rfl⟩ := h
      rw [decode, List.append_assoc, decodeFrom_encodeCode, ← decode, ih hm]
      rfl

theorem decode_encode? (h : encode? t = some bytes) : decode bytes = t := by
  have := decode_append h []
  rw [List.append_nil] at this
  rw [this]
  exact List.append_nil t

/-- No ASCII character goes on another character. -/
def State.Sound : State → Prop
  | .between => True
  | .inside _ _ low _ => 0x80 ≤ low

theorem sound_lead? {state : State} {b : Nat} (h : lead? false b = some (.inr state)) :
    state.Sound := by
  unfold lead? at h
  dsimp only at h
  repeat' split at h
  all_goals cases h <;> simp [State.Sound]

theorem sound_openLenient (b : Nat) : (openLenient b).2.Sound := by
  unfold openLenient
  split
  · trivial
  · trivial
  · exact sound_lead? (by assumption)

theorem sound_stepLenient (state : State) (b : Nat) : (stepLenient state b).2.Sound := by
  cases state with
  | between => exact sound_openLenient b
  | inside need code low high =>
    rw [stepLenient]
    split
    · dsimp only
      split
      · trivial
      · exact Nat.le_refl 0x80
    · exact sound_openLenient b

/-- A character that is not complete becomes U+FFFD where an ASCII character follows or nothing
does. -/
theorem decodeFrom_broken {state : State} (hs : state.Sound) (hb : state ≠ .between)
    (hr : ∀ b ∈ rest.head?, b.toNat < 0x80) :
    decodeFrom state rest = replacement :: decode rest := by
  cases state with
  | between => exact absurd rfl hb
  | inside need code low high =>
    have hlow : 0x80 ≤ low := hs
    cases rest with
    | nil => rfl
    | cons b rest =>
      have hb : b.toNat < 0x80 := hr b rfl
      rw [decodeFrom, stepLenient, if_neg (by omega)]
      rfl

/-- At an ASCII character reading begins anew, however faulty the bytes before it are. -/
theorem decodeFrom_ascii {state : State} {b : UInt8} (hs : state.Sound) (hb : b.toNat < 0x80)
    (bytes rest : Bytes) : decodeFrom state (bytes ++ b :: rest) =
      decodeFrom state bytes ++ .ofCode b.toNat :: decode rest := by
  induction bytes generalizing state with
  | nil =>
    have hnext : decode (b :: rest) = .ofCode b.toNat :: decode rest := by
      have hl : lead? false b.toNat = some (.inl (.ofCode b.toNat)) := by
        rw [lead?, if_pos hb]
      have hone := decodeFrom_one (Nat.lt_trans hb (by decide)) hl rest
      simpa [decode] using hone
    cases state with
    | between => exact hnext
    | inside need code low high =>
      have hbroken : decodeFrom (.inside need code low high) (b :: rest) =
          replacement :: decode (b :: rest) := decodeFrom_broken hs nofun (by simpa using hb)
      rw [List.nil_append, hbroken, hnext]
      rfl
  | cons c bytes ih =>
    have hsound := sound_stepLenient state c.toNat
    rw [List.cons_append, decodeFrom, decodeFrom]
    simp only [ih hsound, List.append_assoc]

theorem decode_ascii {b : UInt8} (hb : b.toNat < 0x80) (bytes rest : Bytes) :
    decode (bytes ++ b :: rest) = decode bytes ++ .ofCode b.toNat :: decode rest :=
  decodeFrom_ascii (by trivial) hb bytes rest

/-! An ASCII character is read from its own byte alone. -/

/-- What is read inside a character has a code point that needs more than one byte. -/
def State.Long : State → Prop
  | .between => True
  | .inside need code low high =>
    if need ≤ 1 then 2 ≤ code else ∀ b, low ≤ b → b ≤ high → 2 ≤ code * 64 + b % 64

theorem long_lead? {state : State} {b : Nat} (h : lead? false b = some (.inr state)) :
    state.Long := by
  unfold lead? at h
  dsimp only at h
  split at h
  · cases h
  split at h
  · cases h
  split at h
  · cases h
    rw [State.Long, if_pos (Nat.le_refl 1)]
    omega
  split at h
  · cases h
    rw [State.Long, if_neg (by decide)]
    intro c hlow hhigh
    split at hlow <;> split at hhigh <;> omega
  split at h
  · cases h
    rw [State.Long, if_neg (by decide)]
    intro c hlow hhigh
    split at hlow <;> split at hhigh <;> omega
  · cases h

theorem mem_openLenient {b : Nat} (h : s ∈ (openLenient b).1) (hc : s.code < 0x80) :
    s.code = b := by
  unfold openLenient at h
  split at h
  · obtain rfl := List.mem_singleton.1 h
    exact absurd hc (by decide)
  · rename_i r hl
    obtain rfl := List.mem_singleton.1 h
    unfold lead? at hl
    dsimp only at hl
    split at hl
    · cases hl
      rw [Symbol.code_ofCode (by omega)]
    all_goals (repeat' split at hl) <;> cases hl
  · cases h

theorem long_openLenient (b : Nat) : (openLenient b).2.Long := by
  unfold openLenient
  split
  · trivial
  · trivial
  · exact long_lead? (by assumption)

theorem stepLenient_ascii {state : State} (hs : state.Long) (b : Nat) :
    (stepLenient state b).2.Long ∧ ∀ s ∈ (stepLenient state b).1, s.code < 0x80 → s.code = b := by
  cases state with
  | between => exact ⟨long_openLenient b, fun s hs hc => mem_openLenient hs hc⟩
  | inside need code low high =>
    rw [State.Long] at hs
    rw [stepLenient]
    split
    · rename_i hr
      dsimp only
      split
      · rename_i hneed
        rw [if_pos hneed] at hs
        refine ⟨trivial, fun s hs' hc => ?_⟩
        obtain rfl := List.mem_singleton.1 hs'
        exact absurd hc (Nat.not_lt.2 (Symbol.le_code_ofCode (by omega)))
      · rename_i hneed
        rw [if_neg hneed] at hs
        have hcode := hs b hr.1 hr.2
        refine ⟨?_, nofun⟩
        rw [State.Long]
        split
        · exact hcode
        · intro c _ _
          omega
    · refine ⟨long_openLenient b, fun s hs' hc => ?_⟩
      rcases List.mem_cons.1 hs' with rfl | hs'
      · exact absurd hc (by decide)
      · exact mem_openLenient hs' hc

theorem mem_decodeFrom {state : State} (hs : state.Long) (h : s ∈ decodeFrom state bytes)
    (hc : s.code < 0x80) : ∃ b ∈ bytes, b.toNat = s.code := by
  induction bytes generalizing state with
  | nil =>
    rw [decodeFrom] at h
    split at h
    · cases h
    · obtain rfl := List.mem_singleton.1 h
      exact absurd hc (by decide)
  | cons b bytes ih =>
    obtain ⟨hnext, hout⟩ := stepLenient_ascii hs b.toNat
    rw [decodeFrom] at h
    rcases List.mem_append.1 h with h | h
    · exact ⟨b, List.mem_cons_self, (hout s h hc).symm⟩
    · obtain ⟨c, hmem, hcode⟩ := ih hnext h
      exact ⟨c, List.mem_cons_of_mem _ hmem, hcode⟩

theorem mem_decode (h : s ∈ decode bytes) (hc : s.code < 0x80) : ∃ b ∈ bytes, b.toNat = s.code :=
  mem_decodeFrom (by trivial) h hc

end Utf8

end ClipActions
