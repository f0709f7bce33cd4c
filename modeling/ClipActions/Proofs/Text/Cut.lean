import ClipActions.Proofs.Text.Decoding

/-!
Bytes that end before the end of a text. What is read of them is the beginning of the text, where a
character whose bytes are not complete has become U+FFFD.
-/
namespace ClipActions

variable {t u v w : Text} {s : Symbol} {p q rest bytes : Bytes}

/-- The second text is what is left of the first when its bytes are cut. -/
inductive Text.Cut : Text → Text → Prop where
  | here {s : Symbol} {t : Text} : Cut (s :: t) []
  | broken {s : Symbol} {t : Text} (h : 0x80 ≤ s.code) : Cut (s :: t) [Utf8.replacement]
  | next {s : Symbol} {t u : Text} (h : Cut t u) : Cut (s :: t) (s :: u)

namespace Text.Cut

theorem not_nil : ¬ Cut [] u := nofun

/-- A text of two parts is cut in the first or in the second. -/
theorem append (h : Cut (t ++ u) v) : Cut t v ∨ ∃ w, v = t ++ w ∧ Cut u w := by
  induction t generalizing v with
  | nil => exact .inr ⟨v, rfl, h⟩
  | cons s t ih =>
    rw [List.cons_append] at h
    cases h with
    | here => exact .inl .here
    | broken hs => exact .inl (.broken hs)
    | next hv =>
      rcases ih hv with ht | ⟨w, rfl, hw⟩
      · exact .inl (.next ht)
      · exact .inr ⟨w, rfl, hw⟩

theorem cons (h : Cut (s :: t) u) (hs : s.code < 0x80) : u = [] ∨ ∃ v, u = s :: v ∧ Cut t v := by
  cases h with
  | here => exact .inl rfl
  | broken h => omega
  | next h => exact .inr ⟨_, rfl, h⟩

/-- Nothing is left of one symbol. -/
theorem singleton (h : Cut [s] u) (hs : s.code < 0x80) : u = [] := by
  rcases h.cons hs with rfl | ⟨v, -, hv⟩
  · rfl
  · exact absurd hv not_nil

/-- No character of one byte is broken. -/
theorem ascii (h : Cut t u) (ht : ∀ s ∈ t, s.code < 0x80) : u <+: t ∧ u.length < t.length := by
  induction h with
  | here => exact ⟨List.nil_prefix, Nat.succ_pos _⟩
  | @broken s t hs => exact absurd hs (Nat.not_le.2 (ht s List.mem_cons_self))
  | @next s t u h ih =>
    obtain ⟨hu, hl⟩ := ih fun r hr => ht r (List.mem_cons_of_mem s hr)
    exact ⟨List.cons_prefix_cons.2 ⟨rfl, hu⟩, Nat.succ_lt_succ hl⟩

theorem of_prefix (h : Cut t u) (hv : v <+: u) : Cut t v := by
  induction h generalizing v with
  | here =>
    obtain rfl := List.prefix_nil.1 hv
    exact .here
  | broken hs =>
    cases v with
    | nil => exact .here
    | cons r v =>
      obtain ⟨rfl, hnil⟩ := List.cons_prefix_cons.1 hv
      obtain rfl := List.prefix_nil.1 hnil
      exact .broken hs
  | next h ih =>
    cases v with
    | nil => exact .here
    | cons r v =>
      obtain ⟨rfl, hprefix⟩ := List.cons_prefix_cons.1 hv
      exact .next (ih hprefix)

theorem mem (h : Cut t u) (hs : s ∈ u) : s ∈ t ∨ s = Utf8.replacement := by
  induction h with
  | here => cases hs
  | broken => exact .inr (List.mem_singleton.1 hs)
  | next h ih =>
    rcases List.mem_cons.1 hs with rfl | hs
    · exact .inl List.mem_cons_self
    · exact (ih hs).imp (List.mem_cons_of_mem _) id

end Text.Cut

namespace Utf8

variable {need code low high n : Nat}

/-- Some of the bytes that a character needs leave a reader inside it. -/
private theorem decodeFrom_some (code : Nat) {ns : List Nat} (hlow : 0x80 ≤ low) (hn : ns.length = need)
    (hfirst : ∀ m ∈ ns.head?, low ≤ m ∧ m ≤ high) (hns : ∀ m ∈ ns, 0x80 ≤ m ∧ m ≤ 0xBF)
    (h : p ++ q = ns.map Nat.toUInt8) (hq : q ≠ []) : ∃ state : State, state.Sound ∧
      state ≠ .between ∧
      ∀ rest, decodeFrom (.inside need code low high) (p ++ rest) = decodeFrom state rest := by
  -- On the bytes to come; the bounds are those of the first of them alone.
  induction ns generalizing need code low high p with
  | nil => exact absurd (List.append_eq_nil_iff.1 h).2 hq
  | cons m ns ih =>
    cases p with
    | nil => exact ⟨.inside need code low high, hlow, nofun, fun rest => rfl⟩
    | cons b p =>
      obtain ⟨rfl, hp⟩ := List.cons.inj h
      obtain ⟨k, rfl⟩ : ∃ k, need = k + 2 := by
        have hlength := congrArg List.length hp
        have hpos := List.length_pos_iff.2 hq
        simp only [List.append_eq, List.length_append, List.length_map, List.length_cons] at *
        exact ⟨need - 2, by omega⟩
      have htail : ∀ l ∈ ns, 0x80 ≤ l ∧ l ≤ 0xBF := fun l hl => hns l (List.mem_cons_of_mem m hl)
      obtain ⟨state, hs, hb, hread⟩ := ih (code * 64 + m % 64) (Nat.le_refl 0x80)
        (Nat.succ.inj hn) (fun l hl => htail l (List.mem_of_mem_head? hl)) htail hp
      have hm := hns m List.mem_cons_self
      refine ⟨state, hs, hb, fun rest => ?_⟩
      rw [List.cons_append, decodeFrom_more (by omega) (hfirst m rfl), hread]

private theorem decodeFrom_begun (ns : List Nat) {b : Nat} (hb : b < 256)
    (hl : lead? false b = some (.inr (.inside need code low high))) (hn : ns.length = need)
    (hfirst : ∀ m ∈ ns.head?, low ≤ m ∧ m ≤ high) (hns : ∀ m ∈ ns, 0x80 ≤ m ∧ m ≤ 0xBF)
    (h : p ++ q = b.toUInt8 :: ns.map Nat.toUInt8) (hp : p ≠ []) (hq : q ≠ []) :
    ∃ state : State, state.Sound ∧ state ≠ .between ∧
      ∀ rest, decodeFrom .between (p ++ rest) = decodeFrom state rest := by
  cases p with
  | nil => exact absurd rfl hp
  | cons a p =>
    obtain ⟨rfl, htail⟩ := List.cons.inj h
    obtain ⟨state, hs, hbetween, hread⟩ := decodeFrom_some code (sound_lead? hl) hn hfirst
      hns htail hq
    refine ⟨state, hs, hbetween, fun rest => ?_⟩
    rw [List.cons_append, decodeFrom_lead hb hl, hread]

/-- Part of the bytes of a character leaves a reader inside it. -/
theorem decodeFrom_part {c : Char} (h : p ++ q = encodeCode c.toNat) (hp : p ≠ []) (hq : q ≠ []) :
    0x80 ≤ c.toNat ∧ ∃ state : State, state.Sound ∧ state ≠ .between ∧
      ∀ rest, decodeFrom .between (p ++ rest) = decodeFrom state rest := by
  have hmax := toNat_lt c
  have hrange := Symbol.not_surrogate c
  generalize c.toNat = n at h hmax hrange ⊢
  have hzero : n / Nat.pow 64 0 = n := Nat.div_one n
  have hone : n / Nat.pow 64 1 = n / 64 := rfl
  have htwo : n / Nat.pow 64 2 = n / 4096 := rfl
  unfold encodeCode at h
  simp only [hzero, hone, htwo] at h
  split at h
  · rcases List.append_eq_singleton_iff.1 h with ⟨rfl, -⟩ | ⟨-, rfl⟩
    · exact absurd rfl hp
    · exact absurd rfl hq
  refine ⟨by omega, ?_⟩
  split at h
  · have hl := lead?_two (q := n / 64) (by omega) (by omega)
    refine decodeFrom_begun [0x80 + n % 64] (by omega) hl rfl ?_ ?_ h hp hq
    · simp
      omega
    · simp
      omega
  split at h
  · obtain ⟨low, high, hl, hr⟩ := lead?_three (q := n / 4096) (r := n / 64 % 64) (by omega)
      (Nat.mod_lt _ (by decide)) (by omega) (by omega)
    refine decodeFrom_begun [0x80 + n / 64 % 64, 0x80 + n % 64] (by omega) hl rfl ?_ ?_ h
      hp hq
    · simpa using hr
    · simp
      omega
  · obtain ⟨low, high, hl, hr⟩ := lead?_four (q := n / 262144) (r := n / 4096 % 64) (by omega)
      (Nat.mod_lt _ (by decide)) (by omega) (by omega)
    refine decodeFrom_begun [0x80 + n / 4096 % 64, 0x80 + n / 64 % 64, 0x80 + n % 64]
      (by omega) hl rfl ?_ ?_ h hp hq
    · simpa using hr
    · simp
      omega

/-- What is read of part of the bytes of a text, where an ASCII character follows or nothing does. -/
theorem decode_part (ht : encode? t = some bytes) (hp : p ++ q = bytes) (hq : q ≠ []) :
    ∃ u, t.Cut u ∧ (p ≠ [] → u ≠ []) ∧
      ∀ rest : Bytes, (∀ b ∈ rest.head?, b.toNat < 0x80) → decode (p ++ rest) = u ++ decode rest := by
  induction t generalizing p bytes with
  | nil =>
    cases ht
    exact absurd (List.append_eq_nil_iff.1 hp).2 hq
  | cons s t ih =>
    cases s with
    | lone half => cases ht
    | char c =>
      simp only [encode?, Option.map_eq_map, Option.map_eq_some_iff] at ht
      obtain ⟨more, hm, rfl⟩ := ht
      -- The bytes end within this character, or somewhere behind it.
      have hends : (∃ a, a ≠ [] ∧ p ++ a = encodeCode c.toNat) ∨
          ∃ more', p = encodeCode c.toNat ++ more' ∧ more' ++ q = more := by
        rcases List.append_eq_append_iff.1 hp with ⟨a, ha, hmore⟩ | ⟨a, ha, hmore⟩
        · by_cases hnil : a = []
          · subst hnil
            exact .inr ⟨[], by rw [ha, List.append_nil, List.append_nil], hmore⟩
          · exact .inl ⟨a, hnil, ha.symm⟩
        · exact .inr ⟨a, ha, hmore.symm⟩
      rcases hends with ⟨a, ha, hpart⟩ | ⟨more', rfl, hmore⟩
      · by_cases hnone : p = []
        · subst hnone
          exact ⟨[], .here, fun h => absurd rfl h, fun rest _ => rfl⟩
        · obtain ⟨hc, state, hs, hb, hread⟩ := decodeFrom_part hpart hnone ha
          refine ⟨[replacement], .broken hc, fun _ => List.cons_ne_nil _ _, fun rest hr => ?_⟩
          rw [decode, hread, decodeFrom_broken hs hb hr]
          rfl
      · obtain ⟨u, hu, -, hread⟩ := ih hm hmore
        refine ⟨.char c :: u, .next hu, fun _ => List.cons_ne_nil _ _, fun rest hr => ?_⟩
        rw [decode, List.append_assoc, decodeFrom_encodeCode, ← decode, hread rest hr]
        rfl

end Utf8

end ClipActions
