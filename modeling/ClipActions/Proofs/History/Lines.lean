import ClipActions.Proofs.History.Sequence

/-!
The history line by line. Reading takes the file as a whole: it decodes all bytes, unifies the line
ends of the text and only then divides it. Still every line is read as if it stood alone, whatever
stands on the other lines, because no faulty sequence of bytes and no pair of line ends reaches over a
line end.
-/
namespace ClipActions.History

variable {file : Path} {a b l : Bytes} {n : UInt8}

/-- Bytes before which a line ends. -/
def Shuts (c : Bytes) : Prop := c = [] ∨ ∃ n after, EndsLine n ∧ c = n :: after

section

variable [Runtime]

/-- What stands where a line has ended is read apart from that line. -/
theorem readable_before (hb : Shuts b) (a : Bytes) :
    readable (a ++ b) = followed (readable a) (readable b) := by
  rcases hb with rfl | ⟨n, after, hn, rfl⟩
  · have hnil : readable [] = .ok [] := rfl
    rw [hnil, List.append_nil, none_followed]
  · have halone : readable (n :: after) = readable after := by
      have hnil : readable [] = .ok [] := rfl
      have hline := readable_line hn [] after
      rwa [hnil, followed_none] at hline
    rw [readable_line hn, halone]

end

/-- A line of bytes decodes to a line of text. -/
theorem not_endsLine_decode (hl : ∀ byte ∈ l, ¬ EndsLine byte) :
    ∀ s ∈ Utf8.decode l, ¬ Text.EndsLine s := by
  rintro s hs (rfl | rfl)
  · obtain ⟨byte, hmem, hcode⟩ := Utf8.mem_decode hs (by decide)
    exact hl byte hmem (.inl (UInt8.toNat_inj.1 hcode))
  · obtain ⟨byte, hmem, hcode⟩ := Utf8.mem_decode hs (by decide)
    exact hl byte hmem (.inr (UInt8.toNat_inj.1 hcode))

section

variable [Runtime]

/-- A line of bytes that does not decode to a JSON object. -/
structure Recordless (l : Bytes) : Prop where
  line : ∀ byte ∈ l, ¬ EndsLine byte
  noObject : ∀ fields, Json.read (Utf8.decode l).trim ≠ .ok (.obj fields)

/-- The container that is nested too deeply in a line of bytes. -/
def deepIn? (l : Bytes) : Option Json.Container :=
  match Json.read (Utf8.decode l).trim with
  | .error fault => fault.problem.tooDeep?
  | .ok _ => none

/-- Such a line is passed over, or nested too deeply. -/
theorem Recordless.readable (hl : Recordless l) : readable l = match deepIn? l with
    | some container => .error (.failed (.tooDeep container))
    | none => .ok [] := by
  rw [readable_text (not_endsLine_decode hl.line) rfl]
  have hread : readLine (Utf8.decode l) = if (Utf8.decode l).trim.isEmpty then .ok none else
      (Json.read (Utf8.decode l).trim).map fun _ => none := by
    unfold readLine
    dsimp only
    split
    · rfl
    · cases hj : Json.read (Utf8.decode l).trim with
      | error fault => rfl
      | ok j => cases j <;> first | rfl | exact absurd hj (hl.noObject _)
  unfold deepIn?
  by_cases hempty : (Utf8.decode l).trim.isEmpty = true
  · rw [if_pos hempty] at hread
    have hnil : (Utf8.decode l).trim = [] := List.isEmpty_iff.1 hempty
    rw [outcome_line hread, hnil]
    rfl
  · rw [if_neg hempty] at hread
    cases hj : Json.read (Utf8.decode l).trim with
    | ok j =>
      rw [hj] at hread
      exact outcome_line hread
    | error fault =>
      rw [hj] at hread
      dsimp only
      cases hd : fault.problem.tooDeep? with
      | none => exact outcome_faulty hread hd
      | some container => exact outcome_deep hread hd

/-- One more line in some bytes, at a place where a line begins or at one where a line ends. -/
inductive Inserted (n : UInt8) (a b l : Bytes) : Bytes → Prop where
  | opening (ha : Opens a) : Inserted n a b l (a ++ (l ++ n :: b))
  | closing (hb : Shuts b) : Inserted n a b l (a ++ (n :: l ++ b))

/-- What is read with one more line. -/
theorem Inserted.readable {c : Bytes} (hc : Inserted n a b l c) (hn : EndsLine n) :
    readable c = followed (readable a) (followed (readable l) (readable b)) ∧
      readable (a ++ b) = followed (readable a) (readable b) := by
  cases hc with
  | opening ha =>
    refine ⟨?_, readable_behind ha b⟩
    rw [readable_behind ha, readable_line hn]
  | closing hb =>
    refine ⟨?_, readable_before hb a⟩
    rw [List.cons_append, readable_line hn, readable_before hb]

/-- What is read of the history, line by line. The records of what stands behind a line end come in
front of the records of what stands before it, whatever the bytes on either side. One more line
without a record changes nothing that is read, wherever it is put, unless it is nested too deeply; then
reading ends in an error. -/
theorem read_lines (file : Path) (hn : EndsLine n) (a b : Bytes) :
    (∀ h₁ h₂ h : Host, Holds file h₁.disk a → Holds file h₂.disk b →
      Holds file h.disk (a ++ n :: b) →
      ((read .null file).result h).1 =
        followed ((read .null file).result h₁).1 ((read .null file).result h₂).1) ∧
    ∀ (l c : Bytes) (h k : Host), Recordless l → Inserted n a b l c → Holds file h.disk (a ++ b) →
      Holds file k.disk c →
      (deepIn? l = none → ((read .null file).result k).1 = ((read .null file).result h).1) ∧
      (deepIn? l ≠ none →
        ∃ container, ((read .null file).result k).1 = .error (.failed (.tooDeep container))) := by
  constructor
  · intro h₁ h₂ h ha hb hc
    rw [result_readEvery ha, result_readEvery hb, result_readEvery hc, readable_line hn]
  · intro l c h k hl hc hh hk
    obtain ⟨hwith, hwithout⟩ := hc.readable hn
    rw [result_readEvery hh, result_readEvery hk, hwith, hwithout, hl.readable]
    cases hd : deepIn? l with
    | none =>
      refine ⟨fun _ => ?_, fun h => absurd rfl h⟩
      rw [followed_none]
    | some container =>
      refine ⟨nofun, fun _ => ?_⟩
      cases hr : readable a with
      | error e =>
        obtain ⟨earlier, rfl⟩ := readable_eq_error hr
        exact ⟨earlier, rfl⟩
      | ok rs => exact ⟨container, rfl⟩

end

/-- A byte that begins no character, on a line of its own between two records. -/
theorem read_lines_damaged :
    ((read .null "h.jsonl").result (keeping (bare ++ 10 :: ([255] ++ 10 :: bare)))).1 =
      ((read .null "h.jsonl").result (keeping (bare ++ 10 :: bare))).1 ∧
    ((read .null "h.jsonl").result (keeping (bare ++ 10 :: bare))).1 = .ok [[], []] := by
  have hfault : ∀ r : Except Json.Fault Json, r.toOption.isNone = true →
      ∀ fields, r ≠ .ok (.obj fields) := by
    intro r hr fields h
    rw [h] at hr
    cases hr
  have hline : ∀ byte ∈ [255], ¬ EndsLine byte := by
    intro byte hb
    rw [List.mem_singleton.1 hb]
    decide
  have hlone : Recordless [255] := ⟨hline, hfault _ (by decide +kernel)⟩
  have hshallow : deepIn? [255] = none := by decide +kernel
  have hopens : Opens (bare ++ [10]) := .inr ⟨bare, 10, .inl rfl, rfl⟩
  obtain ⟨hjoin, -⟩ := read_lines "h.jsonl" (.inl rfl) bare bare
  obtain ⟨-, hinsert⟩ := read_lines "h.jsonl" (.inl rfl) (bare ++ [10]) bare
  constructor
  · exact (hinsert [255] _ _ _ hlone (.opening hopens) (holds_keeping _) (holds_keeping _)).1
      hshallow
  · rw [hjoin _ _ _ (holds_keeping _) (holds_keeping _) (holds_keeping _),
      result_readEvery (holds_keeping _), readable_bare]
    rfl

def brackets : Bytes := List.replicate 3000 91

/-- A line that decodes to no object hides the record before it where it is nested too deeply. -/
theorem read_lines_deep : Recordless brackets ∧
    ((read .null "h.jsonl").result (keeping (bare ++ [10]))).1 = .ok [[]] ∧
    ∃ container, ((read .null "h.jsonl").result (keeping (bare ++ [10] ++ (brackets ++ [10])))).1 =
      .error (.failed (.tooDeep container)) := by
  have hdeep : deepIn? brackets ≠ none := by decide +kernel
  have hline : ∀ byte ∈ brackets, ¬ EndsLine byte := by
    intro byte hmem
    rw [List.eq_of_mem_replicate hmem]
    decide
  have hl : Recordless brackets := by
    refine ⟨hline, fun fields h => hdeep ?_⟩
    rw [deepIn?, h]
  have hopens : Opens (bare ++ [10]) := .inr ⟨bare, 10, .inl rfl, rfl⟩
  have hnil : readable [] = .ok [] := rfl
  have hbare : readable (bare ++ [10]) = .ok [[]] := by
    rw [readable_line (.inl rfl), readable_bare, hnil, none_followed]
  obtain ⟨container, hc⟩ := Option.ne_none_iff_exists'.1 hdeep
  refine ⟨hl, ?_, container, ?_⟩
  · rw [result_readEvery (holds_keeping _), hbare]
  · rw [result_readEvery (holds_keeping _), readable_behind hopens, hbare, readable_line (.inl rfl),
      hl.readable, hc]
    rfl

end ClipActions.History
