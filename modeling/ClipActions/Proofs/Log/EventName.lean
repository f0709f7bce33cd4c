import ClipActions.Log.Event
import ClipActions.Proofs.Json.Symbols
import ClipActions.Proofs.Text.Splitting

/-!
The name of an event can be read off its record: it is what stands between the seventh and the
eighth quote.
-/
namespace ClipActions

namespace Json

theorem escapeSymbol_mark {s : Symbol} (h : s.IsMark) : escapeSymbol s = [s] := by
  obtain ⟨hc, -, hq, hb⟩ := h
  have hlow : ∀ c : Char, c.toNat < 0x20 → s ≠ .char c := by
    rintro c hlt rfl
    simp only [Symbol.code] at hc
    omega
  simp only [escapeSymbol, hq, hb, hlow _ (by decide : '\n'.toNat < 0x20),
    hlow _ (by decide : '\r'.toNat < 0x20), hlow _ (by decide : '\t'.toNat < 0x20),
    hlow _ (by decide : '\x08'.toNat < 0x20), hlow _ (by decide : '\x0c'.toNat < 0x20),
    Nat.not_lt.2 hc, if_false]

theorem flatMap_escapeSymbol {t : Text} (h : t.OfMarks) : t.flatMap escapeSymbol = t := by
  induction t with
  | nil => rfl
  | cons s t ih =>
    rw [List.flatMap_cons, escapeSymbol_mark (h s List.mem_cons_self),
      ih fun r hr => h r (List.mem_cons_of_mem s hr)]
    rfl

theorem writeString_of_marks {t : Text} (h : t.OfMarks) :
    writeString t = .char '"' :: t ++ [.char '"'] := by
  rw [writeString, flatMap_escapeSymbol h]

theorem Fields.put_of_ne {name n : Text} {v w : Json} {fields : Fields} (h : n ≠ name) :
    Fields.put ((n, v) :: fields) name w = (n, v) :: fields.put name w := by
  rw [Fields.put, if_neg h]

/-- Fields of other names are put behind those that are there. -/
theorem Fields.update_of_ne {n : Text} {v : Json} (fields : Fields) {news : Fields}
    (h : ∀ f ∈ news, n ≠ f.1) :
    Fields.update ((n, v) :: fields) news = (n, v) :: Fields.update fields news := by
  unfold Fields.update
  induction news generalizing fields with
  | nil => rfl
  | cons f news ih =>
    rw [List.foldl_cons, List.foldl_cons]
    dsimp only
    rw [Fields.put_of_ne (h f List.mem_cons_self)]
    exact ih _ fun g hg => h g (List.mem_cons_of_mem f hg)

end Json

namespace Log.Event

/-- The name of the event whose record a text is. -/
def nameIn (record : Text) : Text := (record.splitOn (.char '"')).getD 7 []

/-- The name of an event needs no escape, and its fields leave the time and the name alone. -/
structure Plain (e : Event) : Prop where
  name : e.name.OfMarks
  fields : ∀ f ∈ e.fields, f.1 ≠ "ts" ∧ f.1 ≠ "event"

variable {e : Event}

theorem fields_of_names {fields : List (Text × Data)}
    (h : decide (∀ n ∈ fields.map Prod.fst, n ≠ "ts" ∧ n ≠ "event") = true) :
    ∀ f ∈ fields, f.1 ≠ "ts" ∧ f.1 ≠ "event" :=
  fun f hf => of_decide_eq_true h f.1 (List.mem_map_of_mem hf)

/-- Whether an event is plain shows in the names of it and of its fields. -/
theorem Plain.of_names (h : decide (e.name.OfMarks ∧
    ∀ n ∈ e.fields.map Prod.fst, n ≠ "ts" ∧ n ≠ "event") = true) : e.Plain := by
  obtain ⟨hn, hf⟩ := of_decide_eq_true h
  exact ⟨hn, fun f hm => hf f.1 (List.mem_map_of_mem hm)⟩

theorem payload_eq (h : e.Plain) (now : Instant) : ∃ rest, e.payload now =
    .obj (("ts", .str now.event) :: ("event", .str e.name) :: rest) := by
  refine ⟨Json.Fields.update [] (e.fields.map fun f => (f.1, f.2.logSafe)), ?_⟩
  have hne : ∀ f ∈ e.fields.map (fun (x : Text × Data) => (x.1, x.2.logSafe)),
      f.1 ≠ "ts" ∧ f.1 ≠ "event" := by
    intro f hf
    obtain ⟨g, hg, rfl⟩ := List.mem_map.1 hf
    exact h.fields g hg
  unfold payload
  rw [Json.Fields.update_of_ne _ fun f hf => (hne f hf).1.symm,
    Json.Fields.update_of_ne _ fun f hf => (hne f hf).2.symm]

theorem nameIn_record (h : e.Plain) (now : Instant) : nameIn (e.record now) = e.name := by
  obtain ⟨rest, hr⟩ := payload_eq h now
  obtain ⟨tail, ht⟩ : ∃ tail : Text, e.record now =
      ("\x7b" : Text) ++ .char '"' :: (("ts" : Text) ++ .char '"' :: ((":" : Text) ++ .char '"' ::
        (now.event ++ .char '"' :: (("," : Text) ++ .char '"' :: (("event" : Text) ++ .char '"' ::
          ((":" : Text) ++ .char '"' :: (e.name ++ .char '"' :: tail))))))) := by
    have hts := Json.writeString_of_marks (show Text.OfMarks "ts" by decide)
    have hevent := Json.writeString_of_marks (show Text.OfMarks "event" by decide)
    have hnow := Json.writeString_of_marks now.ofMarks_event
    have hname := Json.writeString_of_marks h.name
    unfold record Json.write
    rw [hr]
    cases rest with
    | nil =>
      refine ⟨"\x7d", ?_⟩
      simp only [Json.writeWith, Json.writeFields, hts, hevent, hnow, hname, Json.Layout.compact]
      simp [Text.ofString]
    | cons f rest =>
      refine ⟨("," : Text) ++ Json.writeFields .compact (f :: rest), ?_⟩
      simp only [Json.writeWith, Json.writeFields, hts, hevent, hnow, hname, Json.Layout.compact]
      simp [Text.ofString]
  have hmark : ∀ {t : Text}, t.OfMarks → Symbol.char '"' ∉ t := fun ht hm => (ht _ hm).2.2.1 rfl
  rw [nameIn, ht]
  rw [Text.splitOn_append (by decide), Text.splitOn_append (by decide),
    Text.splitOn_append (by decide), Text.splitOn_append (hmark now.ofMarks_event),
    Text.splitOn_append (by decide), Text.splitOn_append (by decide),
    Text.splitOn_append (by decide), Text.splitOn_append (hmark h.name)]
  rfl

end Log.Event
end ClipActions
