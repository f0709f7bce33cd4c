import ClipActions.Proofs.Json.RoundTrip
import ClipActions.Proofs.Log.Delivery
import ClipActions.Proofs.Text.Order
import ClipActions.Proofs.Text.Quoting

/-!
The block of an event in a log file. The record of an event is read back as its fields, and of these
each one that is not null stands on one line: first those that the schema of the event names, in its
order, then the others, sorted by their names.
-/
namespace ClipActions

/-- A code point that a text file gives back as it is: no carriage return, which is read as a line
feed, and no half of a surrogate pair, which has no bytes. -/
def Symbol.Lasting (s : Symbol) : Prop := s ≠ .char '\r' ∧ s.isLone = false

section

variable [Runtime]

instance (s : Symbol) : Decidable s.Lasting := inferInstanceAs (Decidable (_ ∧ _))

end

theorem Symbol.InLine.lasting {s : Symbol} (h : s.InLine) : s.Lasting :=
  ⟨fun hs => h.1 (.inr hs), h.2⟩

namespace Log

/-! The names of the fields that are shown. -/

theorem Schema.nodup_order (event : Text) : (Schema.order event).Nodup := by
  have hall : ∀ x ∈ Schema.orders, x.2.Nodup := by decide +kernel
  unfold Schema.order
  cases hfound : Schema.orders.lookup event with
  | none => exact (by decide : Schema.defaultOrder.Nodup)
  | some order =>
    obtain ⟨before, after, heq, -⟩ := List.lookup_eq_some_iff.1 hfound
    exact hall (event, order) (heq ▸ List.mem_append_right before List.mem_cons_self)

namespace Block

variable {event n : Text} {fields : Json.Fields} {v : Json}

/-- How the names of shown fields stand: those of the schema in its order, and behind them the others
in order; every name of a field that is not null stands once. -/
structure Arranged (event : Text) (fields : Json.Fields) (first rest : List Text) : Prop where
  nodup : (first ++ rest).Nodup
  mem_iff : ∀ n, n ∈ first ++ rest ↔ ∃ v, fields.find? n = some v ∧ v ≠ .null
  schema : first.Sublist (Schema.order event)
  others : ∀ n ∈ rest, n ∉ Schema.order event
  sorted : rest.Pairwise fun s t => Text.le s t = true

theorem present_iff : (fields.find? n).any (!·.isNull) = true ↔
    ∃ v, fields.find? n = some v ∧ v ≠ .null := by
  cases fields.find? n with
  | none => simp
  | some v => cases v <;> simp [Json.isNull]

theorem arranged_orderedNames (event : Text) (hd : (fields.map Prod.fst).Nodup) :
    ∃ first rest, orderedNames event fields = first ++ rest ∧ Arranged event fields first rest := by
  refine ⟨_, _, rfl, ?_⟩
  have hmem : ∀ n, n ∈ Text.sort ((fields.map Prod.fst).filter fun name =>
      (fields.find? name).any (!·.isNull) && !(Schema.order event).contains name) ↔
        (fields.find? n).any (!·.isNull) = true ∧ n ∉ Schema.order event := by
    intro n
    rw [(Text.sort_perm _).mem_iff, List.mem_filter, Bool.and_eq_true, Bool.not_eq_true',
      ← Bool.not_eq_true, List.contains_iff_mem, and_iff_right_iff_imp]
    rintro ⟨hn, -⟩
    obtain ⟨v, hv, -⟩ := present_iff.1 hn
    exact List.mem_map_of_mem (Json.Fields.mem_of_find? hv)
  refine ⟨?_, fun n => ?_, List.filter_sublist, fun n hn => ((hmem n).1 hn).2, Text.pairwise_sort _⟩
  · rw [List.nodup_append]
    refine ⟨(Schema.nodup_order event).filter _, (Text.sort_perm _).nodup_iff.2 (hd.filter _), ?_⟩
    rintro n hn m hm rfl
    exact ((hmem n).1 hm).2 (List.mem_of_mem_filter hn)
  · rw [List.mem_append, List.mem_filter, hmem, ← present_iff]
    by_cases hs : n ∈ Schema.order event <;> simp [hs]

/-- A value is shown in one line. The line feeds of a text are escaped; nothing else of it is. -/
theorem ofLine_line (h : ∀ t, v = .str t → t.Of Symbol.Lasting) : (line v).OfLine := by
  have hlasting : v.display.Of Symbol.Lasting := by
    cases v with
    | str t => exact h t rfl
    | null | bool b | int n | float x | arr items | obj fields =>
      exact fun s hs => (Json.ofLine_display (fun t ht => by cases ht) s hs).lasting
  intro r hr
  obtain ⟨s, hs, hr⟩ := List.mem_flatMap.1 hr
  split at hr
  · exact (by decide : Text.OfLine "\\n") r hr
  · rename_i hn
    obtain rfl := List.mem_singleton.1 hr
    obtain ⟨hreturn, hlone⟩ := hlasting _ hs
    exact ⟨fun he => he.elim hn hreturn, hlone⟩

end Block

namespace Event

variable {e : Event} {now : Instant} {n : Text} {v : Json}

/-- The fields of its own that an event brings along. -/
def own (e : Event) : Json.Fields := e.fields.map fun f => (f.1, f.2.logSafe)

/-- The fields that are shown of an event: its times, its level and the logger, and its own fields as
they are read back from its record. -/
def shown (e : Event) (now : Instant) : Json.Fields :=
  Json.Fields.update [("ts", .str now.event), ("ts_utc", .str now.record),
    ("level", .str e.level.name), ("logger", .str "root")] (Json.settledFields e.own)

/-- The lines that show an event: its name as a header, and one line for each field that is not null. -/
def Shows (e : Event) (now : Instant) (lines : List Text) : Prop :=
  ∃ first rest, Block.Arranged e.name (e.shown now) first rest ∧
    lines = ("=== " ++ e.name ++ " ===") :: (first ++ rest).map fun n =>
      n ++ ": " ++ Block.line (((e.shown now).find? n).getD .null)

section

variable [Runtime]

/-- An event that can be written and read back: its names stand in a line, no field takes the place of
the name of the event, and no value is beyond what can be read. -/
structure Ordinary (e : Event) : Prop where
  name : e.name.OfLine
  names : ∀ f ∈ e.fields, f.1.OfLine
  own : ∀ f ∈ e.fields, f.1 ≠ "event"
  fits : ∀ f ∈ e.fields, f.2.logSafe.fits = true
  shallow : e.Shallow

end

/-- No text that is a field's value by itself holds what a text file does not give back. -/
def Lasting (e : Event) : Prop :=
  ∀ f ∈ e.fields, ∀ t, f.2.logSafe = .str t → t.Of Symbol.Lasting

theorem writeFields_braced (layout : Json.Layout) (fields : Json.Fields) :
    ∃ t : Text, Json.writeFields layout fields = t ++ "\x7d" := by
  induction fields with
  | nil => exact ⟨[], rfl⟩
  | cons f fields ih =>
    cases fields with
    | nil => exact ⟨_, rfl⟩
    | cons g fields =>
      obtain ⟨t, ht⟩ := ih
      rw [Json.writeFields.eq_def]
      dsimp only
      rw [ht, ← List.append_assoc]
      exact ⟨_, rfl⟩

/-- The record of an event stands in braces. -/
theorem record_braced (e : Event) (now : Instant) :
    (Text.startsWith "\x7b" (e.record now) && Text.endsWith "\x7d" (e.record now)) = true := by
  obtain ⟨t, ht⟩ := writeFields_braced .compact (Json.Fields.update
    [("ts", .str now.event), ("event", .str e.name)] e.own)
  have hrecord : e.record now = .char '\x7b' :: (t ++ [.char '\x7d']) := congrArg (_ :: ·) ht
  rw [hrecord, Bool.and_eq_true, Text.endsWith, Text.startsWith_iff, Text.startsWith_iff]
  refine ⟨⟨_, rfl⟩, ⟨t.reverse ++ [.char '\x7b'], ?_⟩⟩
  simp [Text.ofString]

theorem fits_payload (hf : ∀ f ∈ e.fields, f.2.logSafe.fits = true) (now : Instant) :
    (e.payload now).fits = true := by
  refine Json.valuesFit_iff.2 fun x hx => ?_
  rcases Json.Fields.mem_update hx with hx | hx
  · rcases List.mem_cons.1 hx with rfl | hx
    · rfl
    · rw [List.mem_singleton.1 hx]
      rfl
  · obtain ⟨f, hm, rfl⟩ := List.mem_map.1 hx
    exact hf f hm

/-- The fields of a record that is read back. -/
def recorded (e : Event) (now : Instant) : Json.Fields :=
  Json.Fields.update [("ts", .str now.event), ("event", .str e.name)] (Json.settledFields e.own)

theorem update_recorded (e : Event) (now : Instant) :
    Json.Fields.update [] (e.recorded now) = e.recorded now := by
  have hcommon : (([("ts", .str now.event), ("event", .str e.name)] : Json.Fields).map Prod.fst).Nodup :=
    show (["ts", "event"] : List Text).Nodup by decide
  have hnodup : (([] ++ e.recorded now).map Prod.fst).Nodup := Json.Fields.nodup_update hcommon _
  exact Json.Fields.update_of_nodup hnodup

theorem settled_payload (e : Event) (now : Instant) :
    (e.payload now).settled = .obj (e.recorded now) := by
  rw [← update_recorded, recorded]
  exact congrArg (fun fs => Json.obj (Json.Fields.update [] fs))
    (Json.settledFields_update [("ts", .str now.event), ("event", .str e.name)] e.own)

section

variable [Runtime]

theorem parsed_record (hf : ∀ f ∈ e.fields, f.2.logSafe.fits = true) (hs : e.Shallow)
    (now : Instant) : Block.parsed (e.record now) = .ok (some (e.recorded now)) := by
  have hread : Json.read (e.record now) = .ok (e.payload now).settled :=
    Json.read_write_settled (fits_payload hf now) (payload_readable hs now)
  rw [Block.parsed, if_pos (record_braced e now), hread, settled_payload]

/-- The fields of the block of an event: those of its record over those of every record. -/
def fieldsRead (e : Event) (now : Instant) : Json.Fields :=
  Json.Fields.update (Block.common now { level := e.level, message := e.record now })
    (e.recorded now)

theorem fields_record (hf : ∀ f ∈ e.fields, f.2.logSafe.fits = true) (hs : e.Shallow)
    (now : Instant) : Block.fields now { level := e.level, message := e.record now } =
      .ok (e.fieldsRead now) := by
  rw [Block.fields, parsed_record hf hs]
  rfl

end

theorem find?_own (ho : ∀ f ∈ e.fields, f.1 ≠ "event") :
    (Json.Fields.update [] (Json.settledFields e.own)).find? "event" = none := by
  cases hfind : Json.Fields.find? _ "event" with
  | none => rfl
  | some v =>
    rcases Json.Fields.mem_update (Json.Fields.mem_of_find? hfind) with hx | hx
    · cases hx
    · rw [Json.settledFields_eq_map, own, List.map_map] at hx
      obtain ⟨f, hf, heq⟩ := List.mem_map.1 hx
      exact absurd (congrArg Prod.fst heq) (ho f hf)

theorem find?_fieldsRead (ho : ∀ f ∈ e.fields, f.1 ≠ "event") (now : Instant) (n : Text) :
    (e.fieldsRead now).find? n =
      if n = "event" then some (.str e.name) else (e.shown now).find? n := by
  have hread := Json.Fields.find?_update (Block.common now ⟨"root", e.level, e.record now, none⟩)
    (e.recorded now) n
  have hrecord := Json.Fields.find?_update [("ts", .str now.event), ("event", .str e.name)]
    (Json.settledFields e.own) n
  have hshown := Json.Fields.find?_update [("ts", .str now.event), ("ts_utc", .str now.record),
    ("level", .str e.level.name), ("logger", .str "root")] (Json.settledFields e.own) n
  rw [update_recorded] at hread
  rw [fieldsRead, hread, recorded, hrecord, shown, hshown]
  split
  · rename_i hn
    subst hn
    rw [find?_own ho]
    rfl
  · rename_i hn
    cases Json.Fields.find? (Json.Fields.update [] (Json.settledFields e.own)) n with
    | some v => rfl
    | none =>
      simp only [Block.common, Json.Fields.find?_cons, if_neg hn, Option.none_or]
      by_cases hts : n = "ts"
      · simp [hts]
      · simp [hts, Json.Fields.find?]

/-- All shown fields but the name of the event, which the header shows. -/
theorem find?_erase_fieldsRead (ho : ∀ f ∈ e.fields, f.1 ≠ "event") (now : Instant) (n : Text) :
    ((e.fieldsRead now).erase "event").find? n = (e.shown now).find? n := by
  rw [Json.Fields.find?_erase, find?_fieldsRead ho]
  split
  · rename_i hn
    subst hn
    rw [shown, Json.Fields.find?_update, find?_own ho]
    rfl
  · rfl

def block (e : Event) (now : Instant) : List Text :=
  Block.lines { level := e.level, message := e.record now } (e.fieldsRead now)

/-- The block of an event shows it, and nothing else. -/
theorem shows_block (ho : ∀ f ∈ e.fields, f.1 ≠ "event") (now : Instant) :
    e.Shows now (e.block now) := by
  have hfind := find?_erase_fieldsRead ho now
  have hcommon : ((Block.common now ⟨"root", e.level, e.record now, none⟩).map Prod.fst).Nodup :=
    show (["ts_utc", "level", "logger"] : List Text).Nodup by decide
  have hnodup : (((e.fieldsRead now).erase "event").map Prod.fst).Nodup :=
    (List.filter_sublist.map _).nodup (Json.Fields.nodup_update hcommon _)
  obtain ⟨first, rest, hnames, harranged⟩ := Block.arranged_orderedNames e.name hnodup
  refine ⟨first, rest, ⟨harranged.nodup, fun n => ?_, harranged.schema, harranged.others,
    harranged.sorted⟩, ?_⟩
  · rw [harranged.mem_iff, hfind]
  · have hname : (((e.fieldsRead now).find? "event").map Json.display).getD "root" = e.name := by
      rw [find?_fieldsRead ho, if_pos rfl]
      rfl
    have hlines : e.block now =
        ("=== " ++ (((e.fieldsRead now).find? "event").map Json.display).getD "root" ++ " ===") ::
          ((Block.orderedNames ((((e.fieldsRead now).find? "event").map Json.display).getD "root")
            ((e.fieldsRead now).erase "event")).map (fun n => n ++ ": " ++
              Block.line ((((e.fieldsRead now).erase "event").find? n).getD .null)) ++ []) := rfl
    rw [hlines, hname, hnames, List.append_nil]
    simp only [hfind]

theorem ofLine_name (level : Level) : level.name.OfLine := by
  have hall : ∀ x ∈ Level.names, x.2.OfLine := by decide
  unfold Level.name
  cases hfound : Level.names.lookup level with
  | none => exact .append (by decide) (Text.ofNumerals_ofInt level).marks.inLine
  | some name =>
    obtain ⟨before, after, heq, -⟩ := List.lookup_eq_some_iff.1 hfound
    exact hall (level, name) (heq ▸ List.mem_append_right before List.mem_cons_self)

/-- What is shown of an event stands in a line, the line feeds of its texts apart. -/
theorem shown_lasting (hn : ∀ f ∈ e.fields, f.1.OfLine) (hl : e.Lasting)
    (hv : (e.shown now).find? n = some v) : n.OfLine ∧ ∀ t, v = .str t → t.Of Symbol.Lasting := by
  have hcommon : ∀ {name t : Text}, name.OfLine → t.OfLine →
      name.OfLine ∧ ∀ u, Json.str t = .str u → u.Of Symbol.Lasting :=
    fun hname ht => ⟨hname, fun u hu => by cases hu; exact fun s hs => (ht s hs).lasting⟩
  rcases Json.Fields.mem_update (Json.Fields.mem_of_find? hv) with hx | hx
  · simp only [List.mem_cons, List.not_mem_nil, or_false, Prod.mk.injEq] at hx
    rcases hx with ⟨rfl, rfl⟩ | ⟨rfl, rfl⟩ | ⟨rfl, rfl⟩ | ⟨rfl, rfl⟩
    · exact hcommon (by decide) now.ofMarks_event.inLine
    · exact hcommon (by decide) now.ofMarks_record.inLine
    · exact hcommon (by decide) (ofLine_name e.level)
    · exact hcommon (by decide) (by decide)
  · rw [Json.settledFields_eq_map, own, List.map_map] at hx
    obtain ⟨f, hf, heq⟩ := List.mem_map.1 hx
    cases heq
    refine ⟨hn f hf, fun t ht => hl f hf t ?_⟩
    dsimp only at ht
    cases hsafe : f.2.logSafe with
    | str u =>
      rw [hsafe] at ht
      exact ht
    | null | bool b | int n | float x | arr items | obj fields =>
      rw [hsafe] at ht
      cases ht

variable [Runtime]

/-- No line that shows an event is empty or broken. -/
theorem Shows.ofLine {ls : List Text} (hs : e.Shows now ls) (ho : e.Ordinary) (hl : e.Lasting) :
    ∀ l ∈ ls, l ≠ [] ∧ l.OfLine := by
  obtain ⟨first, rest, harranged, rfl⟩ := hs
  intro l hm
  rcases List.mem_cons.1 hm with rfl | hm
  · refine ⟨by simp [Text.ofString], ?_⟩
    exact ((show Text.OfLine "=== " by decide).append ho.name).append (by decide)
  · obtain ⟨n, hn, rfl⟩ := List.mem_map.1 hm
    obtain ⟨v, hv, -⟩ := (harranged.mem_iff n).1 hn
    obtain ⟨hname, hvalue⟩ := shown_lasting ho.names hl hv
    rw [hv, Option.getD_some]
    exact ⟨by simp [Text.ofString], (hname.append (by decide)).append (Block.ofLine_line hvalue)⟩

end Event
end Log
end ClipActions
