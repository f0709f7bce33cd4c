import ClipActions.Proofs.Text.Paragraphs
import ClipActions.Value

/-!
What the shown form of a document holds. A text inside another value is quoted, so that no code point
of it ends a line and no half of a surrogate pair is left of it; a text by itself stands as it is.
-/
namespace ClipActions

namespace Symbol

variable {s quote : Symbol}

theorem isPrintable_lone (half : Fin 2048) : (lone half).isPrintable = false := by
  have hrange : (0xD7FC, 0xF8FF) ∈ hiddenRanges := by decide +kernel
  have hwithin : (lone half).within hiddenRanges = true := by
    refine List.any_eq_true.2 ⟨_, hrange, ?_⟩
    show (decide (0xD7FC ≤ 0xD800 + half.val) && decide (0xD800 + half.val ≤ 0xF8FF)) = true
    rw [Bool.and_eq_true, decide_eq_true_eq, decide_eq_true_eq]
    omega
  have hcode : ¬ (lone half).code < 0x7F := by
    simp only [code]
    omega
  rw [isPrintable, if_neg hcode, hwithin]
  rfl

theorem isLone_of_isPrintable (h : s.isPrintable = true) : s.isLone = false := by
  cases s with
  | char c => rfl
  | lone half => rw [isPrintable_lone half] at h; cases h

end Symbol

namespace Text

variable {t : Text} {s quote : Symbol}

theorem ofLine_hex (width n : Nat) : (hex width n).OfLine := by
  refine Of.inLine (Of.marks (ofNumerals_padZeros width fun s hs => ?_))
  obtain ⟨d, hd, rfl⟩ := List.mem_map.1 hs
  exact (by decide : ∀ d < 16, (Radix.digit d).IsNumeral) d (Radix.digits_lt (by decide) n d hd)

theorem ofLine_byNumber (s : Symbol) : (byNumber s).OfLine := by
  unfold byNumber
  split
  · exact .append (by decide) (ofLine_hex _ _)
  · split
    · exact .append (by decide) (ofLine_hex _ _)
    · exact .append (by decide) (ofLine_hex _ _)

theorem ofLine_quoteSymbol (hq : quote.InLine) (s : Symbol) : (quoteSymbol quote s).OfLine := by
  unfold quoteSymbol
  split
  · rename_i hs
    refine .cons (by decide) (.cons ?_ fun r hr => by cases hr)
    rcases hs with rfl | rfl
    · exact hq
    · decide
  · split
    · decide
    · rename_i hnewline
      split
      · decide
      · rename_i hreturn
        split
        · decide
        · split
          · rename_i hprintable
            refine .cons ⟨?_, Symbol.isLone_of_isPrintable hprintable⟩ fun r hr => by cases hr
            rintro (rfl | rfl)
            · exact hnewline rfl
            · exact hreturn rfl
          · exact ofLine_byNumber s

/-- A quoted text stands in one line, whatever it quotes. -/
theorem ofLine_quoted (t : Text) : t.quoted.OfLine := by
  have hquote : t.quoteFor.InLine := by
    unfold quoteFor
    split <;> decide
  have hmiddle : Of Symbol.InLine (t.flatMap (quoteSymbol t.quoteFor)) := by
    intro r hr
    obtain ⟨s, -, hs⟩ := List.mem_flatMap.1 hr
    exact ofLine_quoteSymbol hquote s r hs
  exact (Of.cons hquote hmiddle).append (.cons hquote fun r hr => by cases hr)

end Text

namespace Json

mutual

theorem ofLine_quotedForm (j : Json) : Text.OfLine (Value.ofJson j : Data).quotedForm := by
  cases j with
  | null => exact (by decide : Text.OfLine "None")
  | bool b =>
    cases b with
    | false => exact (by decide : Text.OfLine "False")
    | true => exact (by decide : Text.OfLine "True")
  | int n => exact (Text.ofNumerals_ofInt n).marks.inLine
  | float x => exact (Double.ofNumerals_text x).marks.inLine
  | str t => exact Text.ofLine_quoted t
  | arr items =>
    exact ((show Text.OfLine "[" by decide).append
      (.joinWith (by decide) (ofLine_quotedItems items))).append (by decide)
  | obj fields =>
    exact ((show Text.OfLine "\x7b" by decide).append
      (.joinWith (by decide) (ofLine_quotedEntries fields))).append (by decide)

theorem ofLine_quotedItems (js : List Json) :
    ∀ t ∈ Value.quotedItems (Value.ofJsonItems js : List Data), t.OfLine := by
  cases js with
  | nil => exact fun t ht => by cases ht
  | cons j js =>
    intro t ht
    rcases List.mem_cons.1 ht with rfl | ht
    · exact ofLine_quotedForm j
    · exact ofLine_quotedItems js t ht

theorem ofLine_quotedEntries (fields : Fields) :
    ∀ t ∈ Value.quotedEntries (Value.ofJsonFields fields : List (Data × Data)), t.OfLine := by
  match fields with
  | [] => exact fun t ht => by cases ht
  | (name, j) :: fields =>
    intro t ht
    rcases List.mem_cons.1 ht with rfl | ht
    · exact ((Text.ofLine_quoted name).append (by decide)).append (ofLine_quotedForm j)
    · exact ofLine_quotedEntries fields t ht

end

/-- A document by itself is shown in one line if it is no text, or one that stands in a line. -/
theorem ofLine_display {j : Json} (h : ∀ t, j = .str t → t.OfLine) : j.display.OfLine := by
  cases j with
  | str t => exact h t rfl
  | null | bool b | int n | float x | arr items | obj fields => exact ofLine_quotedForm _

end Json
end ClipActions
