import ClipActions.Proofs.Text.Decoding
import ClipActions.Proofs.Text.Leads
import ClipActions.Proofs.Text.Splitting
import ClipActions.Text.Blank
import ClipActions.Text.Newline
import Mathlib.Data.List.Basic

/-!
Texts line by line. A line feed closes what stands before it, in the bytes of a file as in its text,
so a file is read as its beginning and then what has been added behind a line feed.
-/
namespace ClipActions.Text

variable {t u : Text} {s : Symbol} {bytes : Bytes}

/-- Line ends are unified apart on both sides of a place that no pair of them spans. -/
theorem unifyNewlines_append (h : s = .char '\n' → t.getLast? ≠ some (.char '\r')) (u : Text) :
    unifyNewlines (t ++ s :: u) = unifyNewlines t ++ unifyNewlines (s :: u) := by
  fun_induction unifyNewlines t with
  | case1 => rfl
  | case2 rest ih =>
    have hrest : s = .char '\n' → rest.getLast? ≠ some (.char '\r') := by
      intro hs hlast
      cases rest with
      | nil => cases hlast
      | cons r rest => exact h hs (by simpa using hlast)
    simp only [List.cons_append, unifyNewlines, ih hrest]
  | case3 c rest hne ih =>
    have hrest : s = .char '\n' → rest.getLast? ≠ some (.char '\r') := by
      intro hs hlast
      cases rest with
      | nil => cases hlast
      | cons r rest => exact h hs (by simpa using hlast)
    have hnext : ∀ more, c = .char '\r' → rest ++ s :: u = .char '\n' :: more → False := by
      intro more hc hmore
      cases rest with
      | nil =>
        obtain ⟨hs, -⟩ := List.cons.inj hmore
        exact h hs (by rw [hc, List.getLast?_singleton])
      | cons r rest =>
        obtain ⟨hr, -⟩ := List.cons.inj hmore
        exact hne rest hc (by rw [hr])
    rw [List.cons_append, unifyNewlines.eq_3 _ _ hnext, ih hrest, List.cons_append]

/-- A text that ends in a carriage return, or one that does not. -/
theorem getLast?_cases (s : Symbol) (t : Text) :
    t.getLast? ≠ some s ∨ ∃ before, t = before ++ [s] := by
  by_cases h : t.getLast? = some s
  · exact .inr (List.getLast?_eq_some_iff.1 h)
  · exact .inl h

theorem unifyNewlines_eq_self (h : .char '\r' ∉ t) : unifyNewlines t = t := by
  fun_induction unifyNewlines t with
  | case1 => rfl
  | case2 rest ih => simp at h
  | case3 c rest hne ih =>
    rw [List.mem_cons, not_or] at h
    rw [if_neg (Ne.symm h.1), ih h.2]

theorem splitOn_ne_nil (sep : Symbol) (t : Text) : splitOn sep t ≠ [] := by
  fun_induction splitOn sep t <;> simp

theorem lines_line (t u : Text) : lines (t ++ .char '\n' :: u) = lines t ++ lines u := by
  unfold lines
  induction t with
  | nil => simp [splitOn]
  | cons s t ih =>
    rw [List.cons_append, splitOn, splitOn]
    split
    · rw [ih]
      rfl
    · rw [ih]
      cases ht : splitOn (.char '\n') t with
      | nil => exact absurd ht (splitOn_ne_nil _ t)
      | cons piece pieces => rfl

theorem lines_eq_self (h : .char '\n' ∉ t) : lines t = [t] := splitOn_of_not_mem h

/-! Lines between line ends of any kind. -/

def EndsLine (s : Symbol) : Prop := s = .char '\n' ∨ s = .char '\r'

instance (s : Symbol) : Decidable (EndsLine s) :=
  inferInstanceAs (Decidable (s = .char '\n' ∨ s = .char '\r'))

theorem not_endsLine (ht : ∀ s ∈ t, 0x20 ≤ s.code) : ∀ s ∈ t, ¬ EndsLine s := by
  rintro s hs (rfl | rfl) <;> exact absurd (ht _ hs) (by decide)

/-- The lines of a text that are not empty. Two line ends that stand together, whether they are one
pair or not, have nothing between them. -/
def filled (t : Text) : List Text := t.unifyNewlines.lines.filter (!·.isEmpty)

theorem filled_eq_self (ht : ∀ s ∈ t, ¬ EndsLine s) : filled t = [t].filter (!·.isEmpty) := by
  have hcr : Symbol.char '\r' ∉ t := fun hm => ht _ hm (.inr rfl)
  have hlf : Symbol.char '\n' ∉ t := fun hm => ht _ hm (.inl rfl)
  rw [filled, unifyNewlines_eq_self hcr, lines_eq_self hlf]

theorem filter_lines_line (t u : Text) : (lines (t ++ .char '\n' :: u)).filter (!·.isEmpty) =
    t.lines.filter (!·.isEmpty) ++ u.lines.filter (!·.isEmpty) := by
  rw [lines_line, List.filter_append]

/-- A line end becomes a line feed, and behind it stand the lines of what follows. -/
theorem unifyNewlines_cons (hs : EndsLine s) (u : Text) : ∃ w : Text,
    unifyNewlines (s :: u) = .char '\n' :: w ∧ w.lines.filter (!·.isEmpty) = filled u := by
  rcases hs with rfl | rfl
  · exact ⟨unifyNewlines u, rfl, rfl⟩
  · cases u with
    | nil => exact ⟨[], rfl, rfl⟩
    | cons c u =>
      by_cases hc : c = .char '\n'
      · subst hc
        refine ⟨unifyNewlines u, by rw [unifyNewlines], ?_⟩
        exact (filter_lines_line [] (unifyNewlines u)).symm
      · have hne : ∀ more, (Symbol.char '\r') = .char '\r' → c :: u = .char '\n' :: more → False :=
          fun more _ h => hc (List.cons.inj h).1
        exact ⟨unifyNewlines (c :: u), by rw [unifyNewlines.eq_3 _ _ hne, if_pos rfl], rfl⟩

theorem filled_append_of_apart (hs : EndsLine s)
    (h : s = .char '\n' → t.getLast? ≠ some (.char '\r')) (u : Text) :
    filled (t ++ s :: u) = filled t ++ filled u := by
  obtain ⟨w, hw, hlines⟩ := unifyNewlines_cons hs u
  rw [filled, unifyNewlines_append h, hw, filter_lines_line, hlines]
  rfl

/-- A line end divides the lines of a text, even where it goes with the one before it. -/
theorem filled_append (hs : EndsLine s) (t u : Text) :
    filled (t ++ s :: u) = filled t ++ filled u := by
  rcases getLast?_cases (.char '\r') t with h | ⟨before, rfl⟩
  · exact filled_append_of_apart hs (fun _ => h) u
  have hcr (more : Text) : filled (before ++ .char '\r' :: more) = filled before ++ filled more :=
    filled_append_of_apart (.inr rfl) nofun more
  have hlf : filled (.char '\n' :: u) = filled u :=
    filled_append_of_apart (t := []) (.inl rfl) nofun u
  rcases hs with rfl | rfl
  · calc filled (before ++ [.char '\r'] ++ .char '\n' :: u)
        = filled (before ++ .char '\r' :: .char '\n' :: u) := by
          rw [List.append_assoc, List.singleton_append]
      _ = filled before ++ filled u := by rw [hcr, hlf]
      _ = filled (before ++ [.char '\r']) ++ filled u := by
          rw [hcr, show filled [] = [] from rfl, List.append_nil]
  · exact filled_append_of_apart (.inr rfl) nofun u

theorem dropWhile_eq_self {p : Symbol → Bool} (h : ∀ s ∈ t.head?, p s = false) :
    t.dropWhile p = t := by
  cases t with
  | nil => rfl
  | cons s t => rw [List.dropWhile_cons_of_neg (by simpa using h s rfl)]

/-- Nothing is trimmed where no white space stands at either end. -/
theorem trim_eq_self (hh : ∀ s ∈ t.head?, s.isBlank = false)
    (hl : ∀ s ∈ t.getLast?, s.isBlank = false) : t.trim = t := by
  have htail : t.reverse.dropWhile Symbol.isBlank = t.reverse :=
    dropWhile_eq_self (by rwa [List.head?_reverse])
  unfold trim trimBy dropTail
  rw [dropWhile_eq_self hh, htail, List.reverse_reverse]

/-- What begins with no white space loses some of its end at most. -/
theorem trim_cons (hs : s.isBlank = false) (t : Text) : ∃ u, trim (s :: t) = s :: u ∧ u <+: t := by
  have hhead : (s :: t).dropWhile Symbol.isBlank = s :: t :=
    dropWhile_eq_self fun r hr => by cases hr; exact hs
  unfold trim trimBy
  rw [hhead]
  exact dropTail_cons hs t

end ClipActions.Text
