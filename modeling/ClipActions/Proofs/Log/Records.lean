import ClipActions.Proofs.Log.Block

/-!
The record of an event is written whatever its fields hold, and is read back as these. What JSON does not
know is shown as text before it is written, values and names of fields alike, so the writer has nothing
to refuse.
-/
namespace ClipActions

namespace Value

variable {φ : Type}

mutual

/-- A value with its parts that JSON does not know shown as texts, as a value itself. -/
def reduced : Value φ → Value φ
  | null => null
  | bool b => bool b
  | int n => int n
  | float x => float x
  | str t => str t
  | path p => str p.text
  | list items | tuple items | set items => list (reducedItems items)
  | table entries => ofEntries (reducedEntries entries)
  | v => str v.display

def reducedItems : List (Value φ) → List (Value φ)
  | [] => []
  | v :: rest => reduced v :: reducedItems rest

def reducedEntries : List (Value φ × Value φ) → List (Value φ × Value φ)
  | [] => []
  | (k, v) :: rest => (str k.display, reduced v) :: reducedEntries rest

end

mutual

/-- Whether all whole numbers of a value, those in its keys among them, can be written and read. -/
def isShort : Value φ → Bool
  | int n => (Text.ofNat n.natAbs).length ≤ Json.maxDigits
  | list items | tuple items | set items => areShort items
  | table entries => haveShort entries
  | _ => true

def areShort : List (Value φ) → Bool
  | [] => true
  | v :: rest => isShort v && areShort rest

def haveShort : List (Value φ × Value φ) → Bool
  | [] => true
  | (k, v) :: rest => isShort k && isShort v && haveShort rest

end

mutual

/-- Whether a value holds no floating-point numbers. The keys of tables may, as they are shown. -/
def isExact : Value φ → Bool
  | float _ => false
  | list items | tuple items | set items => areExact items
  | table entries => haveExact entries
  | _ => true

def areExact : List (Value φ) → Bool
  | [] => true
  | v :: rest => isExact v && areExact rest

def haveExact : List (Value φ × Value φ) → Bool
  | [] => true
  | (_, v) :: rest => isExact v && haveExact rest

end

/-! What is reduced is the document for the log. -/

theorem foldl_putEntry (fields news : Json.Fields) :
    (ofJsonFields news).foldl (fun es e => putEntry e.1 e.2 es) (ofJsonFields fields) =
      (ofJsonFields (Json.Fields.update fields news) : List (Value φ × Value φ)) := by
  induction news generalizing fields with
  | nil => rfl
  | cons f news ih =>
    obtain ⟨name, j⟩ := f
    rw [ofJsonFields, List.foldl_cons, putEntry_ofJsonFields, ih]
    rfl

mutual

theorem reduced_eq (v : Value φ) : v.reduced = ofJson v.logSafe := by
  cases v with
  | null | bool b | int n | float x | str t | path p | bytes b | shown t | function f => rfl
  | object attributes => rfl
  | list items | tuple items | set items =>
    exact congrArg list (reducedItems_eq items)
  | table entries =>
    rw [reduced, reducedEntries_eq entries]
    exact congrArg table (foldl_putEntry [] (logSafeEntries entries))

theorem reducedItems_eq (items : List (Value φ)) :
    reducedItems items = ofJsonItems (logSafeItems items) := by
  cases items with
  | nil => rfl
  | cons v rest => rw [reducedItems, reduced_eq v, reducedItems_eq rest, logSafeItems, ofJsonItems]

theorem reducedEntries_eq (entries : List (Value φ × Value φ)) :
    reducedEntries entries = ofJsonFields (logSafeEntries entries) := by
  match entries with
  | [] => rfl
  | (k, v) :: rest =>
    rw [reducedEntries, reduced_eq v, reducedEntries_eq rest, logSafeEntries, ofJsonFields]

end

/-- The writer refuses nothing that is reduced. -/
theorem toJson_reduced (v : Value φ) : v.reduced.toJson = .ok v.logSafe := by
  rw [reduced_eq, toJson_ofJson]

mutual

theorem isPlain_logSafe (v : Value φ) (hs : v.isShort = true) (hx : v.isExact = true) :
    v.logSafe.isPlain = true := by
  cases v with
  | int n => exact hs
  | float x => cases hx
  | null | bool b | str t | path p | bytes b | shown t | object attributes | function f => rfl
  | list items | tuple items | set items => exact arePlain_logSafeItems items hs hx
  | table entries =>
    have hnone : (([] : Json.Fields).map Prod.fst).Nodup := List.nodup_nil
    refine Json.isPlain_obj.2 ⟨Json.Fields.nodup_update hnone _, ?_⟩
    refine Json.havePlain_iff.2 fun f hf => ?_
    rcases Json.Fields.mem_update hf with hf | hf
    · cases hf
    · exact Json.havePlain_iff.1 (havePlain_logSafeEntries entries hs hx) f hf

theorem arePlain_logSafeItems (items : List (Value φ)) (hs : areShort items = true)
    (hx : areExact items = true) : Json.arePlain (logSafeItems items) = true := by
  cases items with
  | nil => rfl
  | cons v rest =>
    rw [areShort, Bool.and_eq_true] at hs
    rw [areExact, Bool.and_eq_true] at hx
    rw [logSafeItems, Json.arePlain, isPlain_logSafe v hs.1 hx.1,
      arePlain_logSafeItems rest hs.2 hx.2]
    rfl

theorem havePlain_logSafeEntries (entries : List (Value φ × Value φ))
    (hs : haveShort entries = true) (hx : haveExact entries = true) :
    Json.havePlain (logSafeEntries entries) = true := by
  match entries with
  | [] => rfl
  | (k, v) :: rest =>
    rw [haveShort, Bool.and_eq_true, Bool.and_eq_true] at hs
    rw [haveExact, Bool.and_eq_true] at hx
    rw [logSafeEntries, Json.havePlain, isPlain_logSafe v hs.1.2 hx.1,
      havePlain_logSafeEntries rest hs.2 hx.2]
    rfl

end

def nested : Nat → Value φ
  | 0 => list []
  | n + 1 => list [nested n]

theorem nesting_nested (n : Nat) : (nested n : Value φ).nesting = n + 1 := by
  induction n with
  | zero => rfl
  | succ n ih =>
    rw [nested, nesting, itemNesting, itemNesting, ih]
    exact congrArg (· + 1) (Nat.max_eq_left (Nat.zero_le _))

end Value

namespace Log.Event

variable {e : Event}

/-- The names of an event's fields are its own, and each stands once. -/
structure Named (e : Event) : Prop where
  free : ∀ n ∈ e.fields.map Prod.fst, n ≠ "ts" ∧ n ≠ "event" ∧ n ≠ "level"
  nodup : (e.fields.map Prod.fst).Nodup

def document (e : Event) (now : Instant) : Json :=
  .obj (("ts", .str now.event) :: ("event", .str e.name) :: e.own)

theorem Named.nodup_document (h : e.Named) (now : Instant) :
    ((("ts", .str now.event) :: ("event", .str e.name) :: e.own : Json.Fields).map Prod.fst).Nodup := by
  have hnames : e.own.map Prod.fst = e.fields.map Prod.fst := by
    rw [own, List.map_map]
    rfl
  rw [List.map_cons, List.map_cons, hnames, List.nodup_cons, List.nodup_cons]
  refine ⟨fun hts => ?_, fun hevent => (h.free _ hevent).2.1 rfl, h.nodup⟩
  rcases List.mem_cons.1 hts with heq | hts
  · exact absurd heq (show ("ts" : Text) ≠ "event" by decide)
  · exact (h.free _ hts).1 rfl

theorem Named.payload (h : e.Named) (now : Instant) : e.payload now = e.document now :=
  congrArg Json.obj (Json.Fields.update_of_nodup (h.nodup_document now))

theorem Named.isPlain_document (h : e.Named) (hs : ∀ f ∈ e.fields, f.2.isShort = true)
    (hx : ∀ f ∈ e.fields, f.2.isExact = true) (now : Instant) :
    (e.document now).isPlain = true := by
  refine Json.isPlain_obj.2 ⟨h.nodup_document now, Json.havePlain_iff.2 fun f hf => ?_⟩
  rcases List.mem_cons.1 hf with rfl | hf
  · rfl
  · rcases List.mem_cons.1 hf with rfl | hf
    · rfl
    · obtain ⟨g, hg, rfl⟩ := List.mem_map.1 hf
      exact Value.isPlain_logSafe g.2 (hs g hg) (hx g hg)

variable [Runtime]

/-- The record of an event is read back as the time, the name and the fields. -/
theorem Named.read_record (h : e.Named) (he : e.Shallow)
    (hs : ∀ f ∈ e.fields, f.2.isShort = true) (hx : ∀ f ∈ e.fields, f.2.isExact = true)
    (now : Instant) : Json.read (e.record now) = .ok (e.document now) := by
  have hnesting := Log.Event.payload_readable he now
  rw [h.payload] at hnesting
  rw [record, h.payload]
  exact Json.read_write (h.isPlain_document hs hx now) hnesting

end Log.Event

/-- The record that the log gets by an effect; below the level of information it gets none. -/
def Effect.record? : Effect → Option Text
  | .logged _ level record => if Log.Level.info ≤ level then some record else none
  | _ => none

namespace Job

variable {e : Log.Event}

section

variable [Runtime]

/-- Fields whose names are the event's own are logged like those of any other event. -/
theorem result_logForeign (hn : e.Named) (h : Host) : (logForeign e).result h = (log e).result h := by
  have hlevel : e.fields.any (·.1 = "level") = false := by
    rw [List.any_eq_false]
    intro f hf
    simpa using (hn.free f.1 (List.mem_map_of_mem hf)).2.2
  have hevent : (e.fields.find? fun f => (["event"] : List Text).contains f.1) = none := by
    rw [List.find?_eq_none]
    intro f hf
    simpa using (hn.free f.1 (List.mem_map_of_mem hf)).2.1
  have hfirst : refuseLevel e.fields = pure () := by
    rw [refuseLevel, hlevel]
    rfl
  have hsecond : refuse "log_event" ["event"] e.fields = pure () := by
    rw [refuse, hevent]
  rw [logForeign, hfirst, hsecond, pure_bind, pure_bind]

end

/-- An event with a list that is nested deeper than a usual stack bears. -/
def nestedEvent : Log.Event := { name := "state", fields := [("v", .nested 3000)] }

def minorEvent : Log.Event := { name := "state", level := 10, fields := [("v", .null)] }

end Job
end ClipActions
