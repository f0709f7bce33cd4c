import ClipActions.Proofs.Text.Lines
import ClipActions.Proofs.Text.Numerals

/-!
The paragraphs of a text: groups of lines with empty lines between them. A text that grows by one
paragraph after the other has these paragraphs, as long as no line of them is empty or broken.
-/
namespace ClipActions

/-- A code point that can stand in a line of a file: neither a line end nor half of a surrogate pair. -/
def Symbol.InLine (s : Symbol) : Prop := ¬ Text.EndsLine s ∧ s.isLone = false

instance (s : Symbol) : Decidable s.InLine := inferInstanceAs (Decidable (_ ∧ _))

theorem Symbol.IsMark.inLine {s : Symbol} (h : s.IsMark) : s.InLine := by
  obtain ⟨hc, hl, -⟩ := h
  refine ⟨?_, hl⟩
  rintro (rfl | rfl) <;> exact absurd hc (by decide)

namespace Text

variable {t u body : Text} {ls : List Text}

abbrev OfLine (t : Text) : Prop := t.Of Symbol.InLine

theorem Of.inLine (ht : t.OfMarks) : t.OfLine := fun s hs => (ht s hs).inLine

theorem Of.newline_notMem (ht : t.OfLine) : Symbol.char '\n' ∉ t :=
  fun hm => (ht _ hm).1 (.inl rfl)

/-- The groups of lines that stand between empty lines. -/
def groups (ls : List Text) : List (List Text) := (ls.splitOnP (·.isEmpty)).filter (!·.isEmpty)

def paragraphs (t : Text) : List (List Text) := groups t.lines

theorem groups_append (ls ms : List Text) : groups (ls ++ [] :: ms) = groups ls ++ groups ms := by
  rw [groups, List.splitOnP_append_cons ls ms rfl, List.filter_append]
  rfl

theorem groups_filled (hne : ls ≠ []) (h : ∀ l ∈ ls, l ≠ []) : groups ls = [ls] := by
  have hfull : ∀ l ∈ ls, l.isEmpty = false := fun l hl => by simpa using h l hl
  rw [groups, List.splitOnP_eq_singleton hfull]
  simp [hne]

/-- A blank line stands between paragraphs. -/
theorem paragraphs_blank (t u : Text) :
    paragraphs (t ++ .char '\n' :: .char '\n' :: u) = paragraphs t ++ paragraphs u := by
  have hblank : lines (.char '\n' :: u) = [] :: lines u := lines_line [] u
  rw [paragraphs, lines_line, hblank, groups_append]
  rfl

/-- The line feed at the end of a text adds nothing. -/
theorem paragraphs_closed (t : Text) : paragraphs (t ++ [.char '\n']) = paragraphs t := by
  rw [paragraphs, lines_line]
  exact (groups_append t.lines []).trans (List.append_nil _)

theorem joinWith_singleton (sep l : Text) : joinWith sep [l] = l := by simp [joinWith]

theorem joinWith_cons_cons (sep l k : Text) (ls : List Text) :
    joinWith sep (l :: k :: ls) = l ++ (sep ++ joinWith sep (k :: ls)) := by
  simp [joinWith, List.intercalate_cons_cons]

theorem lines_joinWith (hne : ls ≠ []) (h : ∀ l ∈ ls, .char '\n' ∉ l) :
    lines (joinWith "\n" ls) = ls := by
  induction ls with
  | nil => exact absurd rfl hne
  | cons l ls ih =>
    cases ls with
    | nil =>
      rw [joinWith_singleton, lines_eq_self (h l List.mem_cons_self)]
    | cons k ls =>
      have hmore : joinWith "\n" (l :: k :: ls) = l ++ .char '\n' :: joinWith "\n" (k :: ls) :=
        joinWith_cons_cons "\n" l k ls
      rw [hmore, lines_line, lines_eq_self (h l List.mem_cons_self),
        ih (List.cons_ne_nil _ _) fun m hm => h m (List.mem_cons_of_mem l hm)]
      rfl

theorem paragraphs_joinWith (hne : ls ≠ []) (hfull : ∀ l ∈ ls, l ≠ [])
    (h : ∀ l ∈ ls, .char '\n' ∉ l) : paragraphs (joinWith "\n" ls) = [ls] := by
  rw [paragraphs, lines_joinWith hne h, groups_filled hne hfull]

def entered (t body : Text) : Text := t ++ (if t.isEmpty then body else "\n" ++ body) ++ "\n"

/-- A text that is closed by a line feed if it is there at all. -/
def Closed (t : Text) : Prop := t = [] ∨ ∃ u : Text, t = u ++ [.char '\n']

theorem closed_entered (t body : Text) : (entered t body).Closed := .inr ⟨_, rfl⟩

theorem entered_ne_nil (t body : Text) : entered t body ≠ [] := by simp [entered, ofString]

theorem paragraphs_entered (ht : t.Closed) (body : Text) :
    paragraphs (entered t body) = paragraphs t ++ paragraphs body := by
  rcases ht with rfl | ⟨u, rfl⟩
  · exact paragraphs_closed body
  · have hbody : entered (u ++ [.char '\n']) body =
        (u ++ .char '\n' :: .char '\n' :: body) ++ [.char '\n'] := by
      simp [entered, ofString]
    rw [hbody, paragraphs_closed, paragraphs_blank, paragraphs_closed]

theorem Of.joinWith {P : Symbol → Prop} {sep : Text} (hs : sep.Of P) (h : ∀ l ∈ ls, l.Of P) :
    (joinWith sep ls).Of P := by
  induction ls with
  | nil => exact fun s hs => by cases hs
  | cons l ls ih =>
    have hl := h l List.mem_cons_self
    cases ls with
    | nil =>
      rw [joinWith_singleton]
      exact hl
    | cons k ls =>
      rw [joinWith_cons_cons]
      exact hl.append (hs.append (ih fun m hm => h m (List.mem_cons_of_mem l hm)))

theorem Of.entered {P : Symbol → Prop} (hn : P (.char '\n')) (ht : t.Of P) (hb : body.Of P) :
    (entered t body).Of P := by
  have hline : Of P "\n" := .cons hn fun s hs => by cases hs
  refine (ht.append ?_).append hline
  split
  · exact hb
  · exact hline.append hb

end Text
end ClipActions
