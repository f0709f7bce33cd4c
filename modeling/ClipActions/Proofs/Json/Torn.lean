import ClipActions.Proofs.Json.Nesting
import ClipActions.Proofs.Text.Cut

/-!
The text of a document that has been torn off, with or without the text of another object behind it.
No reader finds a document there, and none refuses it for its depth as long as the two together are
not nested too deeply.
-/
namespace ClipActions.Json

open Text (Cut)

variable {α β : Type} {P Q : Text → Prop} {s : Symbol} {t u v left rest next name : Text}
  {room fuel d : Nat} {x : Except Stop (α × Text)}

def Parts (s : Symbol) : Prop :=
  isSpace s = true ∨ s = .char ',' ∨ s = .char ':' ∨ s = .char ']' ∨ s = .char '\x7d'

section

variable [Runtime]

instance (s : Symbol) : Decidable (Parts s) := inferInstanceAs (Decidable (_ ∨ _ ∨ _ ∨ _ ∨ _))

end

/-- What goes on neither behind a value nor behind a name. -/
def Off (t : Text) : Prop := ∀ s ∈ t.head?, ¬ Parts s

/-- A reader comes to what is off or to what `P` holds of; if it fails, then not for the depth. -/
def Comes (P : Text → Prop) : Except Stop (α × Text) → Prop
  | .ok (_, left) => Off left ∨ P left
  | .error stop => stop.problem.tooDeep? = none

/-- A reader comes to where nothing goes on. -/
abbrev Astray (x : Except Stop (α × Text)) : Prop := Comes (fun _ => False) x

/-- A reader fails, and not for the depth. -/
def Fails (x : Except Stop α) : Prop := ∃ stop, x = .error stop ∧ stop.problem.tooDeep? = none

theorem off_nil : Off [] := nofun

theorem off_cons (h : ¬ Parts s) (t : Text) : Off (s :: t) := by
  intro r hr
  obtain rfl := Option.some.inj hr
  exact h

theorem Off.skipSpace (h : Off t) : skipSpace t = t := by
  cases t with
  | nil => rfl
  | cons s t =>
    have hs : ¬ Parts s := h s rfl
    exact skipSpace_cons (by simpa using fun h => hs (.inl h))

theorem Off.ne {r : Symbol} (h : Off t) (hr : Parts r) (u : Text) : t ≠ r :: u := by
  rintro rfl
  exact h r rfl hr

theorem not_parts_of_isNumeral (h : s.IsNumeral) : ¬ Parts s := by
  rintro (h' | rfl | rfl | rfl | rfl)
  · rw [isSpace_of_isNumeral h] at h'
    cases h'
  all_goals exact absurd h (by decide)

theorem Comes.mono (h : Comes P x) (hPQ : ∀ t, P t → Q t) : Comes Q x := by
  cases x with
  | error stop => exact h
  | ok p => exact h.imp id (hPQ _)

theorem Astray.comes (h : Astray x) : Comes P x := h.mono fun _ => False.elim

theorem Comes.bind {y : α × Text → Except Stop (β × Text)} (h : Comes P x)
    (hy : ∀ a left, Off left ∨ P left → Fails (y (a, left))) : Fails (x >>= y) := by
  cases x with
  | error stop => exact ⟨stop, rfl, h⟩
  | ok p => exact hy p.1 p.2 h

theorem Astray.map (h : Astray x) (f : α × Text → β) :
    Astray (x >>= fun p => .ok (f p, p.2)) := by
  cases x with
  | error stop => exact h
  | ok p => exact h

theorem Shallow.comes (h : Shallow rest x) (hP : P rest) : Comes P x := by
  cases x with
  | error stop => exact h
  | ok p =>
    obtain ⟨a, left⟩ := p
    rcases h with rfl | ⟨s, t, rfl, hs⟩
    · exact .inr hP
    · exact .inl (off_cons (not_parts_of_isNumeral hs) t)

theorem Shallow.astray (h : Shallow rest x) (hr : Off rest) : Astray x := by
  cases x with
  | error stop => exact h
  | ok p =>
    obtain ⟨a, left⟩ := p
    rcases h with rfl | ⟨s, t, rfl, hs⟩
    · exact .inl hr
    · exact .inl (off_cons (not_parts_of_isNumeral hs) t)

theorem Fails.bind {x : Except Stop α} (h : Fails x) (f : α → Except Stop β) : Fails (x >>= f) := by
  obtain ⟨stop, rfl, hs⟩ := h
  exact ⟨stop, rfl, hs⟩

theorem Fails.astray (h : Fails x) : Astray x := by
  obtain ⟨stop, rfl, hs⟩ := h
  exact hs

/-! What may follow the torn text. -/

/-- What stands behind a torn text: nothing, or the text of an object in which `d` containers stand
within each other and which a string goes on into only up to its first name. -/
structure Next (d : Nat) (next : Text) : Prop where
  head : next = [] ∨ ∃ more, next = .char '\x7b' :: more
  value : ∀ room fuel, d ≤ room → Astray (readValue room fuel next)
  pieces : Astray (readPieces next)

theorem next_nil : Next 0 [] where
  head := .inl rfl
  value room fuel _ := by cases fuel <;> rfl
  pieces := by rw [readPieces.eq_def]; rfl

theorem escapeSymbol_head (h : ¬ Parts s) (t : Text) : Off (escapeSymbol s ++ t) := by
  have hslash : ∀ u, Off (.char '\\' :: u) := off_cons (by decide)
  unfold escapeSymbol
  repeat' split
  all_goals first | exact hslash _ | exact off_cons h t

/-- The text of an object follows, unless the name of its first field looks like what goes on. -/
theorem next_write {fields : Fields} (h : ∀ f ∈ fields.head?, Off f.1) :
    Next (obj fields).nesting (obj fields).write where
  head := .inr ⟨_, rfl⟩
  value room fuel hd := by
    have hv := shallow_write (obj fields) fuel (show Stops [] from nofun) hd
    rw [List.append_nil] at hv
    exact hv.astray off_nil
  pieces := by
    -- The quote that opens the first name ends a string that has been torn off.
    match fields with
    | [] => rw [write, readPieces.eq_def]; rfl
    | (name, j) :: fields =>
      have hname : Off name := h (name, j) rfl
      obtain ⟨t, ht⟩ : ∃ t, writeFields .compact ((name, j) :: fields) = writeString name ++ t := by
        cases fields with
        | nil => exact ⟨_, writeFields_one name j⟩
        | cons f fields => exact ⟨_, writeFields_more name j f fields⟩
      have hoff : Off (name.flatMap escapeSymbol ++ .char '"' :: t) := by
        cases name with
        | nil => exact off_cons (by decide) t
        | cons s name =>
          rw [List.flatMap_cons, List.append_assoc]
          exact escapeSymbol_head (hname s rfl) _
      rw [write, writeWith, ht, writeString_append, readPieces.eq_def]
      simp only [readPieces.eq_def (.char '"' :: _), if_true]
      exact .inl hoff

theorem hex4?_eq_none {a b c d : Symbol} (hs : s.hexDigit? = none) (h : s ∈ [a, b, c, d]) :
    hex4? a b c d = none := by
  unfold hex4?
  simp only [List.mem_cons, List.not_mem_nil, or_false] at h
  rcases h with rfl | rfl | rfl | rfl
  · rw [hs]
    rfl
  · cases a.hexDigit? <;> simp [hs]
  · cases a.hexDigit? <;> cases b.hexDigit? <;> simp [hs]
  · cases a.hexDigit? <;> cases b.hexDigit? <;> cases c.hexDigit? <;> simp [hs]

theorem readPieces_alone (s : Symbol) : Fails (readPieces (escapeSymbol s)) := by
  rcases escapeSymbol_cases s with ⟨e, hs, hu, -, he⟩ | ⟨a, b, c, d, hs, -⟩ | ⟨hs, hq, hb, hlow⟩
  · refine ⟨⟨.unterminated, 0⟩, ?_, rfl⟩
    rw [hs, readPieces.eq_def]
    simp only [hu, he, if_true, if_false]
    rfl
  · refine ⟨⟨.badUnicode, 5⟩, ?_, rfl⟩
    rw [hs, readPieces.eq_def]
    rfl
  · refine ⟨⟨.unterminated, 0⟩, ?_, rfl⟩
    rw [hs, readPieces.eq_def]
    simp only [hq, hb, hlow, if_false]
    rfl

/-! Strings that are torn off end at the first quote behind them, or have no end. -/

section

variable (hnext : Next d next)

include hnext

theorem Next.off : Off next := by
  rcases hnext.head with rfl | ⟨more, rfl⟩
  · exact off_nil
  · exact off_cons (by decide) more

theorem Next.stops : Stops next := by
  rcases hnext.head with rfl | ⟨more, rfl⟩
  · exact nofun
  · intro s hs
    cases hs
    decide

theorem readPieces_slash : Fails (readPieces (.char '\\' :: next)) := by
  rcases hnext.head with rfl | ⟨more, rfl⟩
  · exact ⟨_, by rw [readPieces.eq_def]; rfl, rfl⟩
  · exact ⟨_, by rw [readPieces.eq_def]; rfl, rfl⟩

/-- Of the four digits of a control some are missing. -/
theorem readPieces_digits (hv : v.length < 4) :
    Fails (readPieces (.char '\\' :: .char 'u' :: (v ++ next))) := by
  rw [readPieces.eq_def]
  simp only [if_true, if_neg (show Symbol.char '\\' ≠ .char '"' by decide)]
  split
  · rename_i a b c d tail heq
    have hbrace : Symbol.char '\x7b' ∈ [a, b, c, d] := by
      rcases hnext.head with rfl | ⟨more, rfl⟩
      · have := congrArg List.length heq
        simp at this
        omega
      · have : ([a, b, c, d] : Text) = (v ++ .char '\x7b' :: more).take 4 := by
          rw [heq]
          rfl
        rw [this]
        obtain ⟨k, hk⟩ : ∃ k, 4 - v.length = k + 1 := ⟨3 - v.length, by omega⟩
        simp [List.take_append, hk]
    split
    · exact ⟨_, rfl, rfl⟩
    · rw [hex4?_eq_none (by decide) hbrace]
      exact ⟨_, rfl, rfl⟩
  · exact ⟨_, rfl, rfl⟩

/-- Part of what is written for one symbol. -/
theorem readPieces_part (hv : Cut (escapeSymbol s) v) : Astray (readPieces (v ++ next)) := by
  rcases escapeSymbol_cases s with ⟨e, hs, -, he, -⟩ | ⟨a, b, c, d, hs, hascii, -⟩ | ⟨hs, -⟩
  · rw [hs] at hv
    rcases hv.cons (by decide) with rfl | ⟨w, rfl, hw⟩
    · exact hnext.pieces
    · obtain rfl := hw.singleton he
      exact (readPieces_slash hnext).astray
  · rw [hs] at hv
    rcases hv.cons (by decide) with rfl | ⟨w, rfl, hw⟩
    · exact hnext.pieces
    rcases hw.cons (by decide) with rfl | ⟨x, rfl, hx⟩
    · exact (readPieces_slash hnext).astray
    · exact (readPieces_digits hnext (hx.ascii hascii).2).astray
  · rw [hs] at hv
    cases hv with
    | here => exact hnext.pieces
    | broken h =>
      rw [List.singleton_append, readPieces.eq_def]
      exact hnext.pieces.map _
    | next h => exact absurd h Cut.not_nil

theorem readPieces_cut (h : Cut (t.flatMap escapeSymbol ++ [.char '"']) v) :
    Astray (readPieces (v ++ next)) := by
  induction t generalizing v with
  | nil =>
    obtain rfl := h.singleton (by decide)
    exact hnext.pieces
  | cons s t ih =>
    rw [List.flatMap_cons, List.append_assoc] at h
    rcases h.append with hs | ⟨w, rfl, hw⟩
    · exact readPieces_part hnext hs
    rw [List.append_assoc]
    -- With nothing behind it, a symbol that is written whole is no string either.
    by_cases hnil : w ++ next = []
    · rw [hnil, List.append_nil]
      exact (readPieces_alone s).astray
    · obtain ⟨p, -, hread⟩ := readPieces_escapeSymbol s hnil
      rw [hread]
      exact (ih hw).map _

theorem readString_cut (h : Cut (t.flatMap escapeSymbol ++ [.char '"']) v) :
    Astray (readString (v ++ next)) := by
  have hp := readPieces_cut hnext h
  unfold readString
  split
  · rename_i heq
    rwa [heq] at hp
  · rfl
  · rename_i heq
    rwa [heq] at hp

end

/-! Values: the three readers follow the three writers. -/

/-- Behind an item has to come the end, or a comma and the other items. -/
theorem fails_readItems (h : Comes (fun left => ∃ more, left = .char ',' :: more ∧
    Fails (readItems room fuel (skipSpace more))) (readValue room fuel t)) :
    Fails (readItems room (fuel + 1) t) := by
  rw [readItems.eq_def]
  refine h.bind fun a left hl => ?_
  dsimp only
  rcases hl with hoff | ⟨more, rfl, hmore⟩
  · rw [hoff.skipSpace]
    split
    · exact absurd rfl (hoff.ne (by decide) _)
    · exact absurd rfl (hoff.ne (by decide) _)
    · exact ⟨_, rfl, rfl⟩
  · rw [skipSpace_cons (by decide)]
    exact hmore.bind _

/-- Behind a name has to come a colon and a value, and behind them the end, or a comma and the other
fields. -/
theorem fails_readFields (h : Comes (fun left => ∃ u, left = .char ':' :: u ∧
    Comes (fun left => ∃ more, left = .char ',' :: more ∧
      Fails (readFields room fuel (skipSpace more))) (readValue room fuel (skipSpace u)))
    (readString t)) : Fails (readFields room (fuel + 1) (.char '"' :: t)) := by
  rw [readFields.eq_def]
  refine h.bind fun name left hl => ?_
  dsimp only
  rcases hl with hoff | ⟨u, rfl, hu⟩
  · rw [hoff.skipSpace]
    split
    · exact absurd rfl (hoff.ne (by decide) _)
    · exact ⟨_, rfl, rfl⟩
  rw [skipSpace_cons (by decide)]
  refine hu.bind fun a left hl => ?_
  dsimp only
  rcases hl with hoff | ⟨more, rfl, hmore⟩
  · rw [hoff.skipSpace]
    split
    · exact absurd rfl (hoff.ne (by decide) _)
    · exact absurd rfl (hoff.ne (by decide) _)
    · exact ⟨_, rfl, rfl⟩
  · rw [skipSpace_cons (by decide)]
    exact hmore.bind _

/-- An array that is torn off has no end. -/
theorem fails_arr (hs : skipSpace t = t) (ht : ∀ u, t ≠ .char ']' :: u)
    (h : Fails (readItems room fuel t)) :
    Fails (readValue (room + 1) (fuel + 1) (.char '[' :: t)) := by
  rw [readValue.eq_def]
  dsimp only
  rw [if_neg (by decide), if_neg (by decide), if_pos rfl, hs]
  split
  · rename_i heq
    cases heq
  · exact absurd rfl (ht _)
  · rename_i heq _
    cases heq
    exact h.bind _

/-- An object that is torn off has no end. -/
theorem fails_obj (hs : skipSpace t = t) (ht : ∀ u, t ≠ .char '\x7d' :: u)
    (h : Fails (readFields room fuel t)) :
    Fails (readValue (room + 1) (fuel + 1) (.char '\x7b' :: t)) := by
  rw [readValue.eq_def]
  dsimp only
  rw [if_neg (by decide), if_pos rfl, hs]
  split
  · rename_i heq
    cases heq
  · exact absurd rfl (ht _)
  · rename_i heq _
    cases heq
    exact h.bind _

theorem Opens.not_parts (h : Opens s) : ¬ Parts s := by
  rcases h with h | rfl | rfl | rfl
  · exact not_parts_of_isNumeral h
  all_goals decide

theorem Opens.ascii (h : Opens s) : s.code < 0x80 := by
  rcases h with h | rfl | rfl | rfl
  · exact h.ascii
  all_goals decide

section

variable (hnext : Next d next)

include hnext

/-- What is torn off a text that a value begins goes on no other. -/
theorem off_cut (h : Cut (s :: t) v) (hs : Opens s) : Off (v ++ next) := by
  rcases h.cons hs.ascii with rfl | ⟨w, rfl, -⟩
  · exact hnext.off
  · exact off_cons hs.not_parts _

theorem off_cut_write {j : Json} {tail : Text} (h : Cut (j.writeWith .compact ++ tail) v) :
    Off (v ++ next) := by
  obtain ⟨s, t, ht, hs⟩ := j.write_eq_cons
  rw [ht, List.cons_append] at h
  exact off_cut hnext h hs

theorem astray_leaf {j : Json} (hj : Text.OfNumerals (j.writeWith .compact))
    (h : Cut (j.writeWith .compact) u) (hu : u ≠ []) : Astray (readValue room fuel (u ++ next)) :=
  have hprefix := (h.ascii fun s hs => (hj s hs).ascii).1
  (shallow_leaf (hj.sublist hprefix.sublist) hu hnext.stops room fuel).astray hnext.off

/-- The last value of a container. -/
theorem astray_last {j : Json} (hs : s.code < 0x80)
    (hcut : ∀ u, Cut (j.writeWith .compact) u → Astray (readValue room fuel (u ++ next)))
    (hn : j.nesting ≤ room) (h : Cut (j.writeWith .compact ++ [s]) v) :
    Astray (readValue room fuel (v ++ next)) := by
  rcases h.append with h | ⟨w, rfl, hw⟩
  · exact hcut v h
  · obtain rfl := hw.singleton hs
    rw [List.append_nil]
    exact (shallow_write j fuel hnext.stops hn).astray hnext.off

/-- A value that another one follows. -/
theorem comes_more {j : Json} {more : Text}
    (hcut : ∀ u, Cut (j.writeWith .compact) u → Astray (readValue room fuel (u ++ next)))
    (hn : j.nesting ≤ room) (h : Cut (j.writeWith .compact ++ .char ',' :: more) v) :
    Comes (fun left => ∃ w, Cut more w ∧ left = .char ',' :: (w ++ next))
      (readValue room fuel (v ++ next)) := by
  -- It is cut in the value, right behind it, or behind the comma: then the value is read as written.
  rcases h.append with h | ⟨w, rfl, hw⟩
  · exact (hcut v h).comes
  rcases hw.cons (by decide) with rfl | ⟨x, rfl, hx⟩
  · rw [List.append_nil]
    exact ((shallow_write j fuel hnext.stops hn).astray hnext.off).comes
  · rw [List.append_assoc, List.cons_append]
    exact (shallow_write j fuel (closed_cons (by decide) _).stops hn).comes ⟨x, hx, rfl⟩

theorem fails_readItems_next (hd : d ≤ room) : Fails (readItems room fuel next) := by
  cases fuel with
  | zero => exact ⟨_, by rw [readItems.eq_def], rfl⟩
  | succ fuel => exact fails_readItems (hnext.value room fuel hd).comes

theorem fails_readFields_next : Fails (readFields room fuel next) := by
  cases fuel with
  | zero => exact ⟨_, by rw [readFields.eq_def], rfl⟩
  | succ fuel =>
    rcases hnext.head with rfl | ⟨more, rfl⟩
    · exact ⟨_, by rw [readFields.eq_def], rfl⟩
    · exact ⟨_, by rw [readFields.eq_def]; rfl, rfl⟩

/-- A field is torn off in its name, behind it, or in what stands behind the colon. -/
theorem fails_field {j : Json} {tail : Text}
    (h : Cut (writeString name ++ .char ':' :: (j.writeWith .compact ++ tail)) v)
    (hvalue : ∀ w, Cut (j.writeWith .compact ++ tail) w →
      Comes (fun left => ∃ more, left = .char ',' :: more ∧
        Fails (readFields room fuel (skipSpace more))) (readValue room fuel (w ++ next))) :
    Fails (readFields room (fuel + 1) (v ++ next)) := by
  have hwhole : ∀ w, ∃ t, writeString name ++ (w ++ next) = .char '"' :: t ∧
      readString t = .ok (name, w ++ next) :=
    fun w => ⟨_, writeString_append name _, readString_write name _⟩
  rcases h.append with h | ⟨w, rfl, hw⟩
  · rcases h.cons (by decide) with rfl | ⟨x, rfl, hx⟩
    · exact fails_readFields_next hnext
    · exact fails_readFields (readString_cut hnext hx).comes
  obtain ⟨t, ht, hread⟩ := hwhole w
  rw [List.append_assoc, ht]
  refine fails_readFields ?_
  rw [hread]
  rcases hw.cons (by decide) with rfl | ⟨x, rfl, hx⟩
  · exact .inl hnext.off
  · refine .inr ⟨x ++ next, rfl, ?_⟩
    rw [(off_cut_write hnext hx).skipSpace]
    exact hvalue x hx

theorem fails_array {items : List Json} (hv : Cut (writeItems .compact items) v) (hd : d ≤ room)
    (hitems : ∀ j js, items = j :: js → Fails (readItems room fuel (v ++ next))) :
    Fails (readValue (room + 1) (fuel + 1) (.char '[' :: (v ++ next))) := by
  cases items with
  | nil =>
    obtain rfl := hv.singleton (by decide)
    exact fails_arr hnext.off.skipSpace (hnext.off.ne (by decide)) (fails_readItems_next hnext hd)
  | cons j js =>
    have hoff : Off (v ++ next) := by
      obtain ⟨t, ht⟩ := writeItems_cons .compact j js
      exact off_cut_write hnext (ht ▸ hv)
    exact fails_arr hoff.skipSpace (hoff.ne (by decide)) (hitems j js rfl)

theorem fails_object {fields : Fields} (hv : Cut (writeFields .compact fields) v)
    (hfields : ∀ name j rest, fields = (name, j) :: rest →
      Fails (readFields room fuel (v ++ next))) :
    Fails (readValue (room + 1) (fuel + 1) (.char '\x7b' :: (v ++ next))) := by
  match fields with
  | [] =>
    obtain rfl := hv.singleton (by decide)
    exact fails_obj hnext.off.skipSpace (hnext.off.ne (by decide)) (fails_readFields_next hnext)
  | (name, j) :: fields =>
    have hoff : Off (v ++ next) := by
      obtain ⟨t, ht⟩ := writeFields_cons name j fields
      exact off_cut hnext (ht ▸ hv) (by decide)
    exact fails_obj hoff.skipSpace (hoff.ne (by decide)) (hfields name j fields rfl)

end

mutual

/-- The text of a value that is torn off is read as another value at most, or not at all. -/
theorem astray_write (j : Json) {room d : Nat} (fuel : Nat) {next u : Text} (hnext : Next d next)
    (h : Cut (j.writeWith .compact) u) (hn : j.nesting + d ≤ room) :
    Astray (readValue room fuel (u ++ next)) := by
  -- Each reader hands on one step less than it has, and so do these three to each other.
  by_cases hu : u = []
  · subst hu
    exact hnext.value room fuel (by omega)
  cases fuel with
  | zero => rfl
  | succ fuel =>
    cases j with
    | null => exact astray_leaf hnext (j := .null) (by decide) h hu
    | bool b => exact astray_leaf hnext (j := .bool b) (by cases b <;> decide) h hu
    | int n => exact astray_leaf hnext (j := .int n) (Text.ofNumerals_ofInt n) h hu
    | float x => exact astray_leaf hnext (j := .float x) (ofNumerals_writeFloat x) h hu
    | str t =>
      rcases h.cons (by decide) with rfl | ⟨v, rfl, hv⟩
      · exact absurd rfl hu
      · rw [List.cons_append, readValue.eq_def]
        exact (readString_cut hnext hv).map _
    | arr items =>
      rcases h.cons (by decide) with rfl | ⟨v, rfl, hv⟩
      · exact absurd rfl hu
      obtain ⟨room, rfl⟩ : ∃ r, room = r + 1 := ⟨room - 1, by simp only [nesting] at hn; omega⟩
      have hn : itemNesting items + d ≤ room := by simp only [nesting] at hn; omega
      exact (fails_array hnext hv (by omega) fun j js he =>
        fails_writeItems j js fuel hnext (he ▸ hv) (he ▸ hn)).astray
    | obj fields =>
      rcases h.cons (by decide) with rfl | ⟨v, rfl, hv⟩
      · exact absurd rfl hu
      obtain ⟨room, rfl⟩ : ∃ r, room = r + 1 := ⟨room - 1, by simp only [nesting] at hn; omega⟩
      have hn : fieldNesting fields + d ≤ room := by simp only [nesting] at hn; omega
      exact (fails_object hnext hv fun name j rest he =>
        fails_writeFields name j rest fuel hnext (he ▸ hv) (he ▸ hn)).astray
termination_by fuel

/-- Items that are torn off have no end. -/
theorem fails_writeItems (j : Json) (js : List Json) {room d : Nat} (fuel : Nat) {next v : Text}
    (hnext : Next d next) (h : Cut (writeItems .compact (j :: js)) v)
    (hn : itemNesting (j :: js) + d ≤ room) :
    Fails (readItems room fuel (v ++ next)) := by
  cases fuel with
  | zero => exact ⟨_, by rw [readItems.eq_def], rfl⟩
  | succ fuel =>
    have hmax : j.nesting + d ≤ room ∧ itemNesting js + d ≤ room := by
      rw [itemNesting] at hn
      omega
    have hcut : ∀ u, Cut (j.writeWith .compact) u → Astray (readValue room fuel (u ++ next)) :=
      fun u hu => astray_write j fuel hnext hu hmax.1
    cases js with
    | nil =>
      rw [writeItems] at h
      exact fails_readItems (astray_last hnext (by decide) hcut (by omega) h).comes
    | cons k js =>
      rw [writeItems_more] at h
      refine fails_readItems ((comes_more hnext hcut (by omega) h).mono ?_)
      rintro left ⟨w, hw, rfl⟩
      have hoff : Off (w ++ next) := by
        obtain ⟨t, ht⟩ := writeItems_cons .compact k js
        exact off_cut_write hnext (ht ▸ hw)
      refine ⟨w ++ next, rfl, ?_⟩
      rw [hoff.skipSpace]
      exact fails_writeItems k js fuel hnext hw hmax.2
termination_by fuel

/-- Fields that are torn off have no end. -/
theorem fails_writeFields (name : Text) (j : Json) (fields : Fields) {room d : Nat} (fuel : Nat)
    {next v : Text} (hnext : Next d next) (h : Cut (writeFields .compact ((name, j) :: fields)) v)
    (hn : fieldNesting ((name, j) :: fields) + d ≤ room) :
    Fails (readFields room fuel (v ++ next)) := by
  cases fuel with
  | zero => exact ⟨_, by rw [readFields.eq_def], rfl⟩
  | succ fuel =>
    have hmax : j.nesting + d ≤ room ∧ fieldNesting fields + d ≤ room := by
      rw [fieldNesting] at hn
      omega
    have hcut : ∀ u, Cut (j.writeWith .compact) u → Astray (readValue room fuel (u ++ next)) :=
      fun u hu => astray_write j fuel hnext hu hmax.1
    match fields with
    | [] =>
      rw [writeFields_one] at h
      refine fails_field hnext h fun x hx => ?_
      exact (astray_last hnext (by decide) hcut (by omega) hx).comes
    | (n, k) :: fields =>
      rw [writeFields_more] at h
      refine fails_field hnext h fun x hx => ?_
      refine (comes_more hnext hcut (by omega) hx).mono ?_
      rintro left ⟨w, hw, rfl⟩
      have hoff : Off (w ++ next) := by
        obtain ⟨t, ht⟩ := writeFields_cons n k fields
        exact off_cut hnext (ht ▸ hw) (by decide)
      refine ⟨w ++ next, rfl, ?_⟩
      rw [hoff.skipSpace]
      exact fails_writeFields n k fields fuel hnext hw hmax.2
termination_by fuel

end

/-- What is left of the text of an object: some of it, or all of it with other text behind. -/
inductive Torn (fields : Fields) (next : Text) : Text → Prop where
  | part {u : Text} (h : Cut (obj fields).write u) (hu : u ≠ []) : Torn fields next u
  | whole (hn : next ≠ []) : Torn fields next (obj fields).write

variable {fields : Fields}

theorem Torn.eq_cons (h : Torn fields next u) : ∃ v, u = .char '\x7b' :: v := by
  cases h with
  | part h hu =>
    rcases h.cons (by decide) with rfl | ⟨v, rfl, -⟩
    · exact absurd rfl hu
    · exact ⟨v, rfl⟩
  | whole hn => exact ⟨_, rfl⟩

variable [Runtime]

theorem Torn.fails_readStep (h : Torn fields next u) (hnext : Next d next)
    (hn : (obj fields).nesting + d ≤ Runtime.jsonDepth) : Fails (readStep (u ++ next)) := by
  have hskip : skipSpace (u ++ next) = u ++ next := by
    obtain ⟨v, rfl⟩ := h.eq_cons
    exact skipSpace_cons (by decide)
  unfold readStep
  rw [hskip]
  dsimp only
  generalize 2 * (u ++ next).length + 2 = fuel
  cases h with
  | part h hu =>
    rcases h.cons (by decide) with rfl | ⟨v, rfl, hv⟩
    · exact absurd rfl hu
    obtain ⟨room, hroom⟩ := Nat.exists_eq_add_one.2 Runtime.jsonDepth_pos
    rw [hroom] at hn ⊢
    have hn : fieldNesting fields + d ≤ room := by simp only [nesting] at hn; omega
    cases fuel with
    | zero => exact ⟨_, rfl, rfl⟩
    | succ fuel =>
      exact (fails_object hnext hv fun name j rest he =>
        fails_writeFields name j rest fuel hnext (he ▸ hv) (he ▸ hn)).bind _
  | whole hne =>
    have hv : Shallow next (readValue Runtime.jsonDepth fuel ((obj fields).write ++ next)) :=
      shallow_write (obj fields) fuel hnext.stops (by omega)
    obtain ⟨more, rfl⟩ := hnext.head.resolve_left hne
    cases hr : readValue Runtime.jsonDepth fuel ((obj fields).write ++ .char '\x7b' :: more) with
    | error stop =>
      rw [hr] at hv
      exact ⟨stop, rfl, hv⟩
    | ok p =>
      obtain ⟨j, left⟩ := p
      rw [hr] at hv
      have hextra : ∃ s t, left = s :: t ∧ isSpace s = false := by
        rcases hv with rfl | ⟨s, t, rfl, hs⟩
        · exact ⟨_, more, rfl, by decide⟩
        · exact ⟨s, t, rfl, isSpace_of_isNumeral hs⟩
      obtain ⟨s, t, rfl, hs⟩ := hextra
      simp only [bind, Except.bind]
      rw [skipSpace_cons hs]
      exact ⟨_, rfl, rfl⟩

/-- No document is read where one has been torn off, and the text is not refused for its depth. -/
theorem Torn.read (h : Torn fields next u) (hnext : Next d next)
    (hn : (obj fields).nesting + d ≤ Runtime.jsonDepth) :
    ∃ fault, read (u ++ next) = .error fault ∧ fault.problem.tooDeep? = none := by
  obtain ⟨stop, hstop, hdeep⟩ := h.fails_readStep hnext hn
  obtain ⟨v, rfl⟩ := h.eq_cons
  refine ⟨stop.locate (.char '\x7b' :: v ++ next), ?_, hdeep⟩
  rw [List.cons_append] at hstop ⊢
  unfold Json.read
  simp [hstop, Except.mapError]

end ClipActions.Json
