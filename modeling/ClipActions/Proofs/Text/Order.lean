import ClipActions.Text.Basic
import Mathlib.Data.List.Sort

/-!
The order of texts by code point is total, so sorting forgets in which order texts were found, and
what is left out of them may be left out before or afterwards.
-/
namespace ClipActions

theorem Symbol.code_injective {r s : Symbol} (h : r.code = s.code) : r = s := by
  have hchar : ∀ (c : Char) (l : Fin 2048), c.toNat ≠ 0xD800 + l.val := by
    intro c l
    have hvalid : c.toNat < 0xD800 ∨ 0xDFFF < c.toNat ∧ c.toNat < 0x110000 := c.valid
    omega
  cases r with
  | char c =>
    cases s with
    | char d => rw [Char.toNat_inj.1 h]
    | lone l => exact absurd h (hchar c l)
  | lone k =>
    cases s with
    | char d => exact absurd h.symm (hchar d k)
    | lone l => rw [Fin.ext (Nat.add_left_cancel h)]

namespace Text

variable {s t u : Text} {ts us : List Text}

theorem le_cons {a b : Symbol} : le (a :: s) (b :: t) = true ↔
    a.code < b.code ∨ a.code = b.code ∧ le s t = true := by
  simp [le]

theorem le_total (s t : Text) : (le s t || le t s) = true := by
  induction s generalizing t with
  | nil => rfl
  | cons a s ih =>
    cases t with
    | nil => rfl
    | cons b t =>
      have htail := ih t
      rw [Bool.or_eq_true] at htail ⊢
      rw [le_cons, le_cons]
      rcases Nat.lt_trichotomy a.code b.code with h | h | h
      · exact .inl (.inl h)
      · exact htail.imp (fun ht => .inr ⟨h, ht⟩) fun ht => .inr ⟨h.symm, ht⟩
      · exact .inr (.inl h)

theorem le_trans (s t u : Text) (hst : le s t = true) (htu : le t u = true) : le s u = true := by
  induction s generalizing t u with
  | nil => rfl
  | cons a s ih =>
    cases t with
    | nil => cases hst
    | cons b t =>
      cases u with
      | nil => cases htu
      | cons c u =>
        rw [le_cons] at hst htu ⊢
        rcases hst with h | ⟨h, hst⟩
        · exact .inl (htu.elim h.trans fun h' => h.trans_eq h'.1)
        · rcases htu with h' | ⟨h', htu⟩
          · exact .inl (h.trans_lt h')
          · exact .inr ⟨h.trans h', ih t u hst htu⟩

theorem le_antisymm (hst : le s t = true) (hts : le t s = true) : s = t := by
  induction s generalizing t with
  | nil =>
    cases t with
    | nil => rfl
    | cons b t => cases hts
  | cons a s ih =>
    cases t with
    | nil => cases hst
    | cons b t =>
      rw [le_cons] at hst hts
      obtain ⟨hcode, htail⟩ := hst.resolve_left (by omega)
      rw [Symbol.code_injective hcode, ih htail (hts.resolve_left (by omega)).2]

theorem sort_perm (ts : List Text) : (sort ts).Perm ts := List.mergeSort_perm ts le

theorem pairwise_sort (ts : List Text) : (sort ts).Pairwise fun s t => le s t = true :=
  List.pairwise_mergeSort le_trans le_total ts

theorem sort_unique (hp : ts.Perm us) (hs : ts.Pairwise fun s t => le s t = true) : ts = sort us :=
  List.Perm.eq_of_pairwise (fun _ _ _ _ => le_antisymm) hs (pairwise_sort us)
    (hp.trans (sort_perm us).symm)

theorem sort_eq_of_perm (h : ts.Perm us) : sort ts = sort us :=
  sort_unique ((sort_perm ts).trans h) (pairwise_sort ts)

theorem filter_sort (p : Text → Bool) (ts : List Text) :
    (sort ts).filter p = sort (ts.filter p) :=
  sort_unique ((sort_perm ts).filter p) ((pairwise_sort ts).filter p)

end Text
end ClipActions
