import ClipActions.Proofs.Secret.Redaction

/-!
Redaction once is redaction for good. A text without secrets is left as it is, and what redaction
leaves has none: no mask that one kind gets makes a secret of another kind.
-/
namespace ClipActions.Secret

variable {p q : Pattern} {t u : Text}

/-- Nothing is masked where there is no secret. -/
theorem Redacts.eq_of_not_in (h : Redacts p t u) (hn : ¬ p.In t) : u = t := by
  induction h with
  | done => rfl
  | @kept t u s hlead h ih => rw [ih fun ht => hn (ht.append_left [s])]
  | @masked m t u hm h ih => exact absurd ⟨[], m, t, by simp, hm⟩ hn

theorem Pattern.redact_eq_self (hp : p ∈ patterns) (hn : ¬ p.In t) : p.redact t = t :=
  (redacts hp t).eq_of_not_in hn

theorem Clean.redact_eq_self (h : Clean t) : redact t = t := by
  have hstep : ∀ ps : List Pattern, ps ⊆ patterns →
      ps.foldl (fun t pattern => pattern.redact t) t = t := by
    intro ps
    induction ps with
    | nil => exact fun _ => rfl
    | cons p ps ih =>
      intro hps
      obtain ⟨hp, hps⟩ := List.cons_subset.1 hps
      rw [List.foldl_cons, Pattern.redact_eq_self hp (h p hp)]
      exact ih hps
  exact hstep patterns (List.Subset.refl _)

/-- What is left of a text has no secret, a text without secrets is left as it is, and to redact
twice is to redact once. The masking of one kind brings about no secret of any kind. -/
theorem redact_settles (t : Text) :
    Clean (redact t) ∧ (Clean t → redact t = t) ∧ redact (redact t) = redact t ∧
      ∀ p ∈ patterns, ∀ q ∈ patterns, ∀ u, ¬ q.In u → ¬ q.In (p.redact u) :=
  ⟨clean_redact t, Clean.redact_eq_self, (clean_redact t).redact_eq_self,
    fun _ hp _ hq u hn => (redacts hp u).not_in hp hq (.inr hn)⟩

/-- Texts that fall short of a secret by one symbol. -/
def nearMiss : Text :=
  "sk-ant-12 Bearer 1234567890123456789 eyJx.eyJy. sk-123456789"

/-- A text without secrets that holds the beginnings of some. -/
theorem redact_settles_nearMiss : Clean nearMiss ∧ redact nearMiss = nearMiss := by
  have hclean : Clean nearMiss := by decide +kernel
  exact ⟨hclean, (redact_settles nearMiss).2.1 hclean⟩

end ClipActions.Secret
