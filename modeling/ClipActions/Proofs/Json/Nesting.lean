import ClipActions.Json.Reader
import ClipActions.Proofs.Json.Symbols
import ClipActions.Proofs.Text.Decoding
import ClipActions.Proofs.Text.Leads
import Mathlib.Data.List.Forall2
import Mathlib.Data.List.TakeDrop

/-!
Reading back what has been written. A document whose containers do not stand too deep within each
other is never refused for its depth, whatever its texts and its numbers are.
-/
namespace ClipActions.Json

variable {α : Type} {s : Symbol} {t u left rest : Text} {stop : Stop}

/-- What begins with a symbol that may follow a value in a container, or is at its end. -/
def Closed (rest : Text) : Prop :=
  ∀ s ∈ rest.head?, s = .char ',' ∨ s = .char ']' ∨ s = .char '\x7d'

/-- What no number goes on with. -/
def Stops (rest : Text) : Prop := ∀ s ∈ rest.head?, ¬ s.IsNumeral

/-- Some numerals, and then the rest. -/
def Behind (rest t : Text) : Prop := ∃ u : Text, u.OfNumerals ∧ t = u ++ rest

/-- Either a reader comes to the rest, or it stands before a numeral, where no reader goes on; if it
fails, then not for the depth. -/
def Shallow (rest : Text) : Except Stop (α × Text) → Prop
  | .ok (_, left) => left = rest ∨ ∃ s t, left = s :: t ∧ s.IsNumeral
  | .error stop => stop.problem.tooDeep? = none

theorem Stops.head (h : Stops (s :: t)) : ¬ s.IsNumeral := h s rfl

theorem Closed.stops (h : Closed rest) : Stops rest := by
  intro s hs
  rcases h s hs with rfl | rfl | rfl <;> decide

theorem isSpace_of_isNumeral (h : s.IsNumeral) : isSpace s = false := by
  have hne : ∀ r : Symbol, ¬ r.IsNumeral → (s = r) = False := fun r hr => by simp [h.ne hr]
  simp [isSpace, hne (.char ' ') (by decide), hne (.char '\t') (by decide),
    hne (.char '\r') (by decide), hne (.char '\n') (by decide)]

theorem Behind.shallow (h : Behind rest left) (a : α) : Shallow rest (.ok (a, left)) := by
  obtain ⟨u, hu, rfl⟩ := h
  cases u with
  | nil => exact .inl rfl
  | cons s u => exact .inr ⟨s, u ++ rest, rfl, hu s List.mem_cons_self⟩

theorem Behind.tail (h : Behind rest (s :: t)) (hc : Stops rest) (hs : s.IsNumeral) :
    Behind rest t := by
  obtain ⟨u, hu, he⟩ := h
  cases u with
  | nil =>
    rw [List.nil_append] at he
    rw [← he] at hc
    exact absurd hs hc.head
  | cons r u =>
    obtain ⟨rfl, rfl⟩ := List.cons.inj he
    exact ⟨u, fun s hs => hu s (List.mem_cons_of_mem _ hs), rfl⟩

theorem Behind.takeDigits (h : Behind rest t) (hc : Stops rest) :
    Behind rest (takeDigits t).2 := by
  rw [Json.takeDigits, List.span_eq_takeWhile_dropWhile]
  obtain ⟨u, hu, rfl⟩ := h
  induction u with
  | nil =>
    refine ⟨[], by simp [Text.Of], ?_⟩
    cases rest with
    | nil => rfl
    | cons s t =>
      have hs : s.isAsciiDigit = false := by
        have := hc.head
        simp only [Symbol.IsNumeral, not_or] at this
        simpa using this.1
      simp [hs]
  | cons s u ih =>
    rw [List.cons_append, List.dropWhile_cons]
    split
    · exact ih fun r hr => hu r (List.mem_cons_of_mem s hr)
    · exact ⟨s :: u, hu, rfl⟩

theorem Behind.readFraction (h : Behind rest t) (hc : Stops rest) :
    Behind rest (readFraction t).2 := by
  unfold Json.readFraction
  split
  · rename_i more
    have hm := (h.tail hc (by decide)).takeDigits hc
    split
    · exact h
    · rename_i hd
      rw [hd] at hm
      exact hm
  · exact h

theorem Behind.readExponent (h : Behind rest t) (hc : Stops rest) :
    Behind rest (readExponent t).2 := by
  unfold Json.readExponent
  split
  · rename_i e more
    split
    · rename_i he
      have hmore : Behind rest more :=
        h.tail hc (by rcases he with rfl | rfl <;> decide)
      split
      rename_i negative digits heq
      have hdigits : Behind rest digits := by
        split at heq
        · cases heq
          exact hmore.tail hc (by decide)
        · cases heq
          exact hmore.tail hc (by decide)
        · cases heq
          exact hmore
      have hleft := hdigits.takeDigits hc
      split
      · exact h
      · rename_i hd
        rw [hd] at hleft
        exact hleft
    · exact h
  · exact h

theorem Behind.readWhole? (h : Behind rest t) (hc : Stops rest) {whole : Text}
    (hw : readWhole? t = some (whole, left)) : Behind rest left := by
  unfold Json.readWhole? at hw
  split at hw
  · cases hw
    exact h.tail hc (by decide)
  · have hd := h.takeDigits hc
    split at hw
    · cases hw
    · rw [Option.some.inj hw] at hd
      exact hd

theorem Behind.readNumber (h : Behind rest t) (hc : Stops rest) :
    Shallow rest (readNumber t) := by
  unfold Json.readNumber
  split
  rename_i negative body heq
  have hbody : Behind rest body := by
    split at heq
    · cases heq
      exact h.tail hc (by decide)
    · cases heq
      exact h
  split
  · rfl
  · rename_i whole more hw
    have hmore := hbody.readWhole? hc hw
    have hfraction := hmore.readFraction hc
    have hexponent := hfraction.readExponent hc
    dsimp only
    split
    · split
      · rfl
      · exact hexponent.shallow _
    · exact hexponent.shallow _

/-- What is left behind a word of numerals. -/
theorem Behind.append {lead : Text} (hl : lead.OfNumerals) (h : Behind rest (lead ++ left))
    (hc : Stops rest) : Behind rest left := by
  induction lead with
  | nil => exact h
  | cons s lead ih =>
    exact ih (fun r hr => hl r (List.mem_cons_of_mem s hr)) (h.tail hc (hl s List.mem_cons_self))

theorem Behind.readWord? (h : Behind rest t) (hc : Stops rest) {j : Json}
    (hw : readWord? t = some (j, left)) : Behind rest left := by
  obtain ⟨⟨word, k⟩, hk, hd⟩ := List.exists_of_findSome?_eq_some hw
  simp only [Option.map_eq_some_iff] at hd
  obtain ⟨l, hd, he⟩ := hd
  cases he
  have hword : ∀ f ∈ words, Text.OfNumerals f.1 := by decide
  rw [Text.append_of_dropLead? hd] at h
  exact h.append (hword _ hk) hc

/-! Strings: whatever a text is, its written form is read up to its closing quote. -/

/-- A piece that a symbol of a string is read as: controls alone are written by their numbers. -/
def Piece.Is (p : Piece) (s : Symbol) : Prop := p = .plain s ∨ (p = .unit s.code ∧ s.code < 0x20)

private theorem hex4?_write : ∀ n < 0x20, ∃ a b c d : Symbol,
    (Radix.write 16 n).padZeros 4 = [a, b, c, d] ∧ (∀ r ∈ [a, b, c, d], r.code < 0x80) ∧
      hex4? a b c d = some n := by
  have all : ∀ n < 0x20, ((Radix.write 16 n).padZeros 4).length = 4 ∧
      (∀ r ∈ (Radix.write 16 n).padZeros 4, r.code < 0x80) ∧
      hex4? (((Radix.write 16 n).padZeros 4).getD 0 default)
        (((Radix.write 16 n).padZeros 4).getD 1 default)
        (((Radix.write 16 n).padZeros 4).getD 2 default)
        (((Radix.write 16 n).padZeros 4).getD 3 default) = some n := by decide
  intro n hn
  obtain ⟨hl, ha, hx⟩ := all n hn
  generalize (Radix.write 16 n).padZeros 4 = digits at hl ha hx
  match digits, hl with
  | [a, b, c, d], _ => exact ⟨a, b, c, d, rfl, ha, hx⟩

/-- A symbol of a string is written by a letter, by its number or as it is. -/
theorem escapeSymbol_cases (s : Symbol) :
    (∃ e, escapeSymbol s = [.char '\\', e] ∧ e ≠ .char 'u' ∧ e.code < 0x80 ∧
      escape? e = some s) ∨
    (∃ a b c d, escapeSymbol s = [.char '\\', .char 'u', a, b, c, d] ∧
      (∀ r ∈ [a, b, c, d], r.code < 0x80) ∧ hex4? a b c d = some s.code ∧ s.code < 0x20) ∨
    (escapeSymbol s = [s] ∧ s ≠ .char '"' ∧ s ≠ .char '\\' ∧ ¬ s.code < 0x20) := by
  have letter : ∀ e r, e ≠ .char 'u' → e.code < 0x80 → escape? e = some r → s = r →
      ∃ e', [.char '\\', e] = [.char '\\', e'] ∧ e' ≠ .char 'u' ∧ e'.code < 0x80 ∧
        escape? e' = some s :=
    fun e r hu hc he hs => ⟨e, rfl, hu, hc, hs ▸ he⟩
  unfold escapeSymbol
  split
  · exact .inl (letter _ _ (by decide) (by decide) (by rfl) ‹_›)
  split
  · exact .inl (letter _ _ (by decide) (by decide) (by rfl) ‹_›)
  split
  · exact .inl (letter _ _ (by decide) (by decide) (by rfl) ‹_›)
  split
  · exact .inl (letter _ _ (by decide) (by decide) (by rfl) ‹_›)
  split
  · exact .inl (letter _ _ (by decide) (by decide) (by rfl) ‹_›)
  split
  · exact .inl (letter _ _ (by decide) (by decide) (by rfl) ‹_›)
  split
  · exact .inl (letter _ _ (by decide) (by decide) (by rfl) ‹_›)
  split
  · rename_i hlow
    obtain ⟨a, b, c, d, hw, ha, hx⟩ := hex4?_write s.code hlow
    exact .inr (.inl ⟨a, b, c, d, by rw [hw]; rfl, ha, hx, hlow⟩)
  · exact .inr (.inr ⟨rfl, ‹_›, ‹_›, ‹_›⟩)

/-- What is written for one symbol is read as one piece. -/
theorem readPieces_escapeSymbol (s : Symbol) (ht : t ≠ []) : ∃ p : Piece, p.Is s ∧
    readPieces (escapeSymbol s ++ t) = readPieces t >>= fun q => .ok (p :: q.1, q.2) := by
  rcases escapeSymbol_cases s with ⟨e, hs, hu, -, he⟩ | ⟨a, b, c, d, hs, -, hx, hlow⟩ |
    ⟨hs, hq, hb, hlow⟩
  · refine ⟨.plain s, .inl rfl, ?_⟩
    rw [hs, List.cons_append, List.singleton_append, readPieces.eq_def]
    simp only [hu, he, if_true, if_false]
    rfl
  · refine ⟨.unit s.code, .inr ⟨rfl, hlow⟩, ?_⟩
    rw [hs]
    show readPieces (.char '\\' :: .char 'u' :: a :: b :: c :: d :: t) = _
    rw [readPieces.eq_def]
    simp [hx, ht]
    rfl
  · refine ⟨.plain s, .inl rfl, ?_⟩
    rw [hs, List.singleton_append, readPieces.eq_def]
    simp only [hq, hb, hlow, if_false]
    rfl

theorem readPieces_write (t rest : Text) : ∃ ps, List.Forall₂ Piece.Is ps t ∧
    readPieces (t.flatMap escapeSymbol ++ .char '"' :: rest) = .ok (ps, rest) := by
  induction t with
  | nil => exact ⟨[], .nil, by rw [List.flatMap_nil, List.nil_append, readPieces.eq_def]; rfl⟩
  | cons s t ih =>
    obtain ⟨ps, hps, hr⟩ := ih
    have hne : t.flatMap escapeSymbol ++ .char '"' :: rest ≠ [] := by simp
    obtain ⟨p, hp, hread⟩ := readPieces_escapeSymbol s hne
    rw [List.flatMap_cons, List.append_assoc, hread, hr]
    exact ⟨p :: ps, .cons hp hps, rfl⟩

/-- No two pieces of a written string are halves of one code point. -/
theorem joinPieces_of_is {ps : List Piece} (h : List.Forall₂ Piece.Is ps t) :
    joinPieces ps = t := by
  induction h with
  | nil => rfl
  | @cons p s ps t hp hps ih =>
    rcases hp with rfl | ⟨rfl, hlow⟩
    · rw [joinPieces, ih]
    · have hs := Symbol.ofCode_code (Nat.lt_trans hlow (by decide : 0x20 < 0xD800))
      cases ps with
      | nil => rw [joinPieces, ih, hs]; simp
      | cons q ps =>
        cases q with
        | plain r => rw [joinPieces, ih, hs]; simp
        | unit v =>
          rw [joinPieces, if_neg (by omega), ih, hs]

/-- A string is read to its end, behind its opening quote. -/
theorem readString_write (t rest : Text) :
    readString (t.flatMap escapeSymbol ++ .char '"' :: rest) = .ok (t, rest) := by
  obtain ⟨ps, hps, hr⟩ := readPieces_write t rest
  rw [readString, hr, ← joinPieces_of_is hps]

theorem writeString_append (t rest : Text) :
    writeString t ++ rest = .char '"' :: (t.flatMap escapeSymbol ++ .char '"' :: rest) := by
  simp [writeString]

/-! Values: the three readers follow the three writers. -/

theorem skipSpace_cons (h : isSpace s = false) : skipSpace (s :: t) = s :: t := by
  rw [skipSpace, List.dropWhile_cons, if_neg (by simp [h])]

theorem Shallow.bind {β : Type} {mid : Text} {x : Except Stop (α × Text)}
    {f : α × Text → Except Stop (β × Text)} (hx : Shallow mid x)
    (hf : ∀ a, Shallow rest (f (a, mid)))
    (hs : ∀ a s t, s.IsNumeral → Shallow rest (f (a, s :: t))) : Shallow rest (x >>= f) := by
  cases x with
  | error stop => exact hx
  | ok p =>
    obtain ⟨a, left⟩ := p
    rcases hx with rfl | ⟨s, t, rfl, h⟩
    · exact hf a
    · exact hs a s t h

theorem Shallow.map {β : Type} {x : Except Stop (α × Text)} (hx : Shallow rest x) (g : α → β) :
    Shallow rest (x >>= fun p => .ok (g p.1, p.2)) :=
  hx.bind (fun _ => .inl rfl) fun _ s t h => .inr ⟨s, t, rfl, h⟩

/-- Where a separator or an end has to come, a numeral is refused. -/
private theorem skipSpace_numeral (h : s.IsNumeral) :
    skipSpace (s :: t) = s :: t ∧ s ≠ .char ',' ∧ s ≠ .char ']' ∧ s ≠ .char '\x7d' :=
  ⟨skipSpace_cons (isSpace_of_isNumeral h), h.ne (by decide), h.ne (by decide), h.ne (by decide)⟩

/-- A symbol that the text of a value may begin with. -/
def Opens (s : Symbol) : Prop :=
  s.IsNumeral ∨ s = .char '"' ∨ s = .char '[' ∨ s = .char '\x7b'

section

variable [Runtime]

instance (s : Symbol) : Decidable (Opens s) := inferInstanceAs (Decidable (_ ∨ _ ∨ _ ∨ _))

end

theorem Opens.ne {r : Symbol} (hs : Opens s) (hr : ¬ Opens r) : s ≠ r := by
  rintro rfl
  exact hr hs

theorem Opens.isSpace (h : Opens s) : isSpace s = false := by
  rcases h with h | rfl | rfl | rfl
  · exact isSpace_of_isNumeral h
  · decide
  · decide
  · decide

theorem write_eq_cons (j : Json) : ∃ s t, j.writeWith .compact = s :: t ∧ Opens s := by
  have leaf : ∀ u : Text, u ≠ [] → u.OfNumerals → ∃ s t, u = s :: t ∧ Opens s := by
    intro u h hu
    cases u with
    | nil => exact absurd rfl h
    | cons s u => exact ⟨s, u, rfl, .inl (hu s List.mem_cons_self)⟩
  cases j with
  | null => exact leaf _ (by decide) (by decide)
  | bool b => cases b <;> exact leaf _ (by decide) (by decide)
  | int n => exact leaf _ (Text.ofInt_ne_nil n) (Text.ofNumerals_ofInt n)
  | float x => exact leaf _ (writeFloat_ne_nil x) (ofNumerals_writeFloat x)
  | str t => exact ⟨_, _, rfl, by decide⟩
  | arr items => exact ⟨_, _, rfl, by decide⟩
  | obj fields => exact ⟨_, _, rfl, by decide⟩

/-- No blank begins the text of a value. -/
theorem skipSpace_write (j : Json) (rest : Text) :
    skipSpace (j.writeWith .compact ++ rest) = j.writeWith .compact ++ rest := by
  obtain ⟨s, t, h, hs⟩ := j.write_eq_cons
  rw [h]
  exact skipSpace_cons hs.isSpace

/-- What is no string and no container is read as a word or as a number. -/
theorem shallow_leaf (hu : u.OfNumerals) (hne : u ≠ []) (hc : Stops rest) (room fuel : Nat) :
    Shallow rest (readValue room fuel (u ++ rest)) := by
  have hb : Behind rest (u ++ rest) := ⟨u, hu, rfl⟩
  cases fuel with
  | zero => rfl
  | succ fuel =>
    have hhead : ∀ s t, u ++ rest = s :: t →
        s ≠ .char '"' ∧ s ≠ .char '\x7b' ∧ s ≠ .char '[' := by
      intro s t he
      cases u with
      | nil => exact absurd rfl hne
      | cons r u =>
        obtain ⟨rfl, -⟩ := List.cons.inj he
        have hr := hu r List.mem_cons_self
        exact ⟨hr.ne (by decide), hr.ne (by decide), hr.ne (by decide)⟩
    rw [readValue.eq_def]
    split
    · rename_i hf
      cases hf
    · dsimp only
      split
      · rfl
      · rename_i s t he
        obtain ⟨h1, h2, h3⟩ := hhead s t he
        rw [if_neg h1, if_neg h2, if_neg h3]
        split
        · rename_i found hw
          exact (hb.readWord? hc hw).shallow _
        · exact hb.readNumber hc

theorem writeItems_cons (layout : Layout) (j : Json) (js : List Json) :
    ∃ t, writeItems layout (j :: js) = j.writeWith layout ++ t := by
  cases js with
  | nil => exact ⟨_, rfl⟩
  | cons k js => exact ⟨_, by rw [writeItems, List.append_assoc]; simp⟩

theorem writeFields_cons (name : Text) (j : Json) (fields : Fields) :
    ∃ t, writeFields .compact ((name, j) :: fields) = .char '"' :: t := by
  cases fields with
  | nil => exact ⟨_, rfl⟩
  | cons f fields => exact ⟨_, rfl⟩

theorem closed_cons (h : s = .char ',' ∨ s = .char ']' ∨ s = .char '\x7d') (t : Text) :
    Closed (s :: t) := by
  intro r hr
  obtain rfl := Option.some.inj hr
  exact h

theorem writeItems_more (j k : Json) (js : List Json) :
    writeItems .compact (j :: k :: js) =
      j.writeWith .compact ++ .char ',' :: writeItems .compact (k :: js) := by
  rw [writeItems.eq_def]
  dsimp only
  rw [List.append_assoc]
  rfl

theorem writeFields_one (name : Text) (j : Json) :
    writeFields .compact [(name, j)] =
      writeString name ++ .char ':' :: (j.writeWith .compact ++ [.char '\x7d']) := by
  rw [writeFields.eq_def]
  simp only [List.append_assoc]
  rfl

theorem writeFields_more (name : Text) (j : Json) (f : Text × Json) (fields : Fields) :
    writeFields .compact ((name, j) :: f :: fields) = writeString name ++ .char ':' ::
      (j.writeWith .compact ++ .char ',' :: writeFields .compact (f :: fields)) := by
  rw [writeFields.eq_def]
  simp only [List.append_assoc]
  rfl

theorem skipSpace_writeItems (j : Json) (js : List Json) (rest : Text) :
    skipSpace (writeItems .compact (j :: js) ++ rest) = writeItems .compact (j :: js) ++ rest := by
  obtain ⟨t, ht⟩ := writeItems_cons .compact j js
  rw [ht, List.append_assoc]
  exact skipSpace_write j _

theorem skipSpace_writeFields (name : Text) (j : Json) (fields : Fields) (rest : Text) :
    skipSpace (writeFields .compact ((name, j) :: fields) ++ rest) =
      writeFields .compact ((name, j) :: fields) ++ rest := by
  obtain ⟨t, ht⟩ := writeFields_cons name j fields
  rw [ht]
  exact skipSpace_cons (by decide)

theorem readValue_str (room fuel : Nat) (t rest : Text) :
    readValue room (fuel + 1) ((str t).writeWith .compact ++ rest) = .ok (.str t, rest) := by
  rw [writeWith, writeString_append, readValue.eq_def]
  dsimp only
  rw [if_pos rfl, readString_write]
  rfl

theorem readValue_arr_nil (room fuel : Nat) (rest : Text) :
    readValue (room + 1) (fuel + 1) ((arr []).writeWith .compact ++ rest) = .ok (.arr [], rest) := by
  rw [writeWith, List.cons_append, readValue.eq_def]
  dsimp only
  rw [if_neg (by decide), if_neg (by decide), if_pos rfl]
  rfl

/-- An array that is not empty is read item by item. -/
theorem readValue_arr_cons (room fuel : Nat) (j : Json) (js : List Json) (rest : Text) :
    readValue (room + 1) (fuel + 1) ((arr (j :: js)).writeWith .compact ++ rest) =
      readItems room fuel (writeItems .compact (j :: js) ++ rest) >>= fun p =>
        .ok (.arr p.1, p.2) := by
  obtain ⟨t, ht⟩ := writeItems_cons .compact j js
  obtain ⟨s, u, hj, hs⟩ := j.write_eq_cons
  rw [writeWith, List.cons_append, readValue.eq_def]
  dsimp only
  rw [if_neg (by decide), if_neg (by decide), if_pos rfl, skipSpace_writeItems]
  split
  · rename_i heq
    cases heq
  · rename_i heq _
    rw [ht, hj] at heq
    exact absurd (List.cons.inj heq).1 (hs.ne (by decide))
  · rename_i heq _
    cases heq
    rfl

theorem readValue_obj_nil (room fuel : Nat) (rest : Text) :
    readValue (room + 1) (fuel + 1) ((obj []).writeWith .compact ++ rest) = .ok (.obj [], rest) := by
  rw [writeWith, List.cons_append, readValue.eq_def]
  dsimp only
  rw [if_neg (by decide), if_pos rfl]
  rfl

/-- An object that is not empty is read field by field. -/
theorem readValue_obj_cons (room fuel : Nat) (name : Text) (j : Json) (fields : Fields)
    (rest : Text) :
    readValue (room + 1) (fuel + 1) ((obj ((name, j) :: fields)).writeWith .compact ++ rest) =
      readFields room fuel (writeFields .compact ((name, j) :: fields) ++ rest) >>= fun p =>
        .ok (.obj (Fields.update [] p.1), p.2) := by
  obtain ⟨t, ht⟩ := writeFields_cons name j fields
  rw [writeWith, List.cons_append, readValue.eq_def]
  dsimp only
  rw [if_neg (by decide), if_pos rfl, skipSpace_writeFields]
  split
  · rename_i heq
    cases heq
  · rename_i heq _
    rw [ht] at heq
    exact absurd (List.cons.inj heq).1 (by decide)
  · rename_i heq _
    cases heq
    rfl

/-- Behind an item comes the end, or a comma and the other items. -/
private theorem shallow_readItems {room fuel : Nat} {mid : Text}
    (hx : Shallow mid (readValue room fuel t))
    (hm : mid = .char ']' :: rest ∨
      ∃ more, mid = .char ',' :: more ∧ Shallow rest (readItems room fuel (skipSpace more))) :
    Shallow rest (readItems room (fuel + 1) t) := by
  rw [readItems.eq_def]
  refine hx.bind (fun a => ?_) fun a s t hs => ?_
  · obtain rfl | ⟨more, rfl, hmore⟩ := hm
    · exact .inl rfl
    · exact hmore.map fun js => a :: js
  · obtain ⟨hk, hcomma, hbracket, -⟩ := skipSpace_numeral (t := t) hs
    dsimp only
    rw [hk]
    split
    · rename_i heq
      exact absurd (List.cons.inj heq).1 hbracket
    · rename_i heq
      exact absurd (List.cons.inj heq).1 hcomma
    · rfl

/-- Behind a field comes the end, or a comma and the other fields. -/
private theorem shallow_readFields {room fuel : Nat} {mid name : Text}
    (hname : readString t = .ok (name, .char ':' :: u))
    (hx : Shallow mid (readValue room fuel (skipSpace u)))
    (hm : mid = .char '\x7d' :: rest ∨
      ∃ more, mid = .char ',' :: more ∧ Shallow rest (readFields room fuel (skipSpace more))) :
    Shallow rest (readFields room (fuel + 1) (.char '"' :: t)) := by
  rw [readFields.eq_def]
  simp only [hname]
  refine hx.bind (fun a => ?_) fun a s t hs => ?_
  · obtain rfl | ⟨more, rfl, hmore⟩ := hm
    · exact .inl rfl
    · exact hmore.map fun fields => (name, a) :: fields
  · obtain ⟨hk, hcomma, -, hbrace⟩ := skipSpace_numeral (t := t) hs
    dsimp only
    rw [hk]
    split
    · rename_i heq
      exact absurd (List.cons.inj heq).1 hbrace
    · rename_i heq
      exact absurd (List.cons.inj heq).1 hcomma
    · rfl

mutual

/-- A document is read without a fault of depth if there is room for its containers. -/
theorem shallow_write (j : Json) {room : Nat} (fuel : Nat) {rest : Text} (hc : Stops rest)
    (hn : j.nesting ≤ room) :
    Shallow rest (readValue room fuel (j.writeWith .compact ++ rest)) := by
  -- To run out of fuel is no fault of depth: the room alone stands against the nesting.
  cases fuel with
  | zero => rfl
  | succ fuel =>
    cases j with
    | null => exact shallow_leaf (by decide) (by decide) hc room _
    | bool b => cases b <;> exact shallow_leaf (by decide) (by decide) hc room _
    | int n => exact shallow_leaf (Text.ofNumerals_ofInt n) (Text.ofInt_ne_nil n) hc room _
    | float x => exact shallow_leaf (ofNumerals_writeFloat x) (writeFloat_ne_nil x) hc room _
    | str t =>
      rw [readValue_str]
      exact .inl rfl
    | arr items =>
      obtain ⟨room, rfl⟩ : ∃ r, room = r + 1 := ⟨room - 1, by simp only [nesting] at hn; omega⟩
      have hn : itemNesting items ≤ room := by simpa [nesting] using hn
      cases items with
      | nil =>
        rw [readValue_arr_nil]
        exact .inl rfl
      | cons j js =>
        rw [readValue_arr_cons]
        exact (shallow_items j js fuel hn rest).map _
    | obj fields =>
      obtain ⟨room, rfl⟩ : ∃ r, room = r + 1 := ⟨room - 1, by simp only [nesting] at hn; omega⟩
      have hn : fieldNesting fields ≤ room := by simpa [nesting] using hn
      match fields with
      | [] =>
        rw [readValue_obj_nil]
        exact .inl rfl
      | (name, j) :: fields =>
        rw [readValue_obj_cons]
        exact (shallow_fields name j fields fuel hn rest).map fun fs => obj (Fields.update [] fs)

termination_by fuel

private theorem shallow_items (j : Json) (js : List Json) {room : Nat} (fuel : Nat)
    (hn : itemNesting (j :: js) ≤ room) (rest : Text) :
    Shallow rest (readItems room fuel (writeItems .compact (j :: js) ++ rest)) := by
  cases fuel with
  | zero => rfl
  | succ fuel =>
    rw [itemNesting, Nat.max_le] at hn
    cases js with
    | nil =>
      rw [writeItems, List.append_assoc]
      exact shallow_readItems (shallow_write j fuel (closed_cons (by decide) rest).stops hn.1)
        (.inl rfl)
    | cons k js =>
      have hmore := shallow_items k js fuel hn.2 rest
      rw [← skipSpace_writeItems] at hmore
      rw [writeItems_more, List.append_assoc]
      exact shallow_readItems (shallow_write j fuel (closed_cons (by decide) _).stops hn.1)
        (.inr ⟨_, rfl, hmore⟩)

termination_by fuel

private theorem shallow_fields (name : Text) (j : Json) (fields : Fields) {room : Nat} (fuel : Nat)
    (hn : fieldNesting ((name, j) :: fields) ≤ room) (rest : Text) :
    Shallow rest (readFields room fuel (writeFields .compact ((name, j) :: fields) ++ rest)) := by
  cases fuel with
  | zero => rfl
  | succ fuel =>
    rw [fieldNesting, Nat.max_le] at hn
    match fields with
    | [] =>
      have hvalue := shallow_write j fuel (closed_cons (s := .char '\x7d') (by decide) rest).stops
        hn.1
      rw [← skipSpace_write] at hvalue
      have hread := shallow_readFields (readString_write name _) hvalue (.inl rfl)
      rw [writeFields_one]
      simpa [writeString_append] using hread
    | (n, k) :: fields =>
      have hmore := shallow_fields n k fields fuel hn.2 rest
      rw [← skipSpace_writeFields] at hmore
      have hvalue := shallow_write j fuel (closed_cons (s := .char ',') (by decide)
        (writeFields .compact ((n, k) :: fields) ++ rest)).stops hn.1
      rw [← skipSpace_write] at hvalue
      have hread := shallow_readFields (readString_write name _) hvalue (.inr ⟨_, rfl, hmore⟩)
      rw [writeFields_more]
      simpa [writeString_append] using hread
termination_by fuel

end

variable [Runtime]

private theorem tooDeep?_readStep {j : Json} (hn : j.nesting ≤ Runtime.jsonDepth)
    (h : readStep j.write = .error stop) : stop.problem.tooDeep? = none := by
  have hskip : skipSpace j.write = j.write := by
    have := skipSpace_write j []
    rwa [List.append_nil] at this
  have hv := shallow_write j (2 * j.write.length + 2) (show Stops [] from by simp [Stops]) hn
  rw [List.append_nil, ← write] at hv
  unfold readStep at h
  simp only [hskip] at h
  cases hr : readValue Runtime.jsonDepth (2 * j.write.length + 2) j.write with
  | error stop' =>
    rw [hr] at hv h
    cases h
    exact hv
  | ok p =>
    rw [hr] at h
    simp only [bind, Except.bind] at h
    split at h
    · cases h
    · cases h
      rfl

/-- What has been written is not refused for its depth. -/
theorem tooDeep?_read_write {j : Json} (hn : j.nesting ≤ Runtime.jsonDepth) {fault : Fault}
    (h : read j.write = .error fault) : fault.problem.tooDeep? = none := by
  unfold read at h
  dsimp only at h
  split at h
  · cases h
    rfl
  · cases hr : readStep j.write with
    | ok k =>
      rw [hr] at h
      cases h
    | error stop =>
      rw [hr] at h
      cases h
      exact tooDeep?_readStep hn hr

end ClipActions.Json
