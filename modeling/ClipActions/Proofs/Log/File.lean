import ClipActions.Proofs.Log.Block
import ClipActions.Proofs.Text.Encoding

/-!
The log file, event after event. Each event enters one more paragraph into the text of the file, so
that the text that is read in the end has one paragraph for each event, in order, and none besides.
-/
namespace ClipActions

namespace Disk

variable {d : Disk} {p : Path} {c : Bytes}

/-- What is appended to a file is read behind what could be read before. -/
theorem read_append (hr : d.read p = .ok c) (ha : d.refusal? (.append p) = none) (bytes : Bytes) :
    (d.append p bytes).1.read p = .ok (c ++ bytes) := by
  obtain ⟨l, hl, hn⟩ := read_eq_ok.1 hr
  have hfile : d.node? l ≠ some .directory := by
    rw [hn]
    nofun
  have hcontent : d.contentOrEmpty l = c := by rw [contentOrEmpty, hn]
  rw [append_of_appendable (appendable_eq_ok.2 ⟨hl, hfile⟩) ha, hcontent]
  refine read_eq_ok.2 ⟨l, locate_of_within (fun q hq => ?_) hl, node?_put_self d _ hfile⟩
  rwa [node?_put_of_ne]
  rintro rfl
  exact hfile hq

theorem refusal?_append (hr : d.read p = .ok c) (ha : d.refusal? (.append p) = none)
    (bytes : Bytes) : (d.append p bytes).1.refusal? = d.refusal? := by
  obtain ⟨l, hl, hn⟩ := read_eq_ok.1 hr
  have hfile : d.node? l ≠ some .directory := by
    rw [hn]
    nofun
  rw [append_of_appendable (appendable_eq_ok.2 ⟨hl, hfile⟩) ha]
  exact refusal?_put d l _

end Disk

namespace Log

variable {e : Event} {now : Instant}

/-- A log file at a path holds a text, and takes what is appended to it. Records go to that file, the
first of them if the text is empty. -/
structure Journal (p : Path) (text : Text) (h : Host) : Prop where
  target : h.target = .file p text.isEmpty
  allowed : h.disk.refusal? (.append p) = none
  read : ∃ bytes, h.disk.read p = .ok bytes ∧ Utf8.encode? text = some bytes

def Event.body (e : Event) (now : Instant) : Text := Text.joinWith "\n" (e.block now)

variable [Runtime]

theorem Event.ofLasting_body (ho : e.Ordinary) (hl : e.Lasting) (now : Instant) :
    (e.body now).Of Symbol.Lasting :=
  .joinWith (by decide) fun l hm s hs =>
    (((Event.shows_block ho.own now).ofLine ho hl l hm).2 s hs).lasting

theorem Event.paragraphs_body (ho : e.Ordinary) (hl : e.Lasting) (now : Instant) :
    (e.body now).paragraphs = [e.block now] := by
  have hline := (Event.shows_block ho.own now).ofLine ho hl
  exact Text.paragraphs_joinWith (List.cons_ne_nil _ _) (fun l hm => (hline l hm).1)
    fun l hm => (hline l hm).2.newline_notMem

theorem Event.format_record (ho : e.Ordinary) (first : Bool) (now : Instant) :
    Block.format first now { level := e.level, message := e.record now } =
      .ok (if first then e.body now else "\n" ++ e.body now) := by
  rw [Block.format, Event.fields_record ho.fits ho.shallow]
  rfl

end Log

namespace Job

open Log (Journal Event Level)

variable {p : Path} {text : Text} {h : Host} {e : Event} {now : Instant}
  {events : List (Instant × Event)}

section

variable [Runtime]

/-- An event that is logged at a point in time. -/
def logAt (now : Instant) (e : Event) : Job Unit := do
  modify fun host => { host with now }
  log e

/-- Events that are logged one after the other, each at a time of its own. -/
def logAll (events : List (Instant × Event)) : Job Unit := events.forM fun x => logAt x.1 x.2

theorem result_logAt_eq (he : e.Shallow) (now : Instant) (h : Host) : (logAt now e).result h =
    (logRecord { level := e.level, message := e.record now }).result { h with
      now, trace := h.trace ++ [.logged h.target e.level (e.record now)] } := by
  have hnow : (modify fun host => { host with now } : Job Unit).result h =
      (.ok (), { h with now }) := rfl
  rw [logAt, result_bind_ok hnow, result_log he]

/-- A record that goes to a file is appended to it as a block. -/
theorem result_logRecord_file {r : Log.Record} {first : Bool} {block : Text} {bytes : Bytes}
    (hv : Level.info ≤ r.level) (ht : h.target = .file p first)
    (hb : Log.Block.format first h.now r = .ok block)
    (hbytes : Utf8.encode? (block ++ "\n") = some bytes) : (logRecord r).result h =
      (.ok (), { h with disk := (h.disk.append p bytes).1, target := .file p false }) := by
  unfold logRecord
  rw [if_pos hv, result_bind_ok (result_get h), ht]
  dsimp only
  rw [hb]
  have htake : (take (.ok block) : Job Text).result h = (.ok block, h) := rfl
  rw [result_bind_ok htake, hbytes]
  rfl

/-- An event of a level that is logged enters its block into the log file. -/
theorem result_logAt (hj : Journal p text h) (ho : e.Ordinary) (hb : (e.body now).Encodable)
    (hv : Level.info ≤ e.level) : ∃ k, (logAt now e).result h = (.ok (), k) ∧
      Journal p (text.entered (e.body now)) k := by
  obtain ⟨held, hread, hheld⟩ := hj.read
  have hadded : Text.Encodable ((if text.isEmpty then e.body now else "\n" ++ e.body now) ++ "\n") := by
    have hline : Text.Encodable "\n" := by decide
    refine Text.Of.append (P := fun s => s.isLone = false) ?_ hline
    split
    · exact hb
    · exact Text.Of.append (P := fun s => s.isLone = false) hline hb
  obtain ⟨bytes, hbytes⟩ := Utf8.isSome_encode? hadded
  rw [result_logAt_eq ho.shallow]
  refine ⟨_, result_logRecord_file hv hj.target (Event.format_record ho _ now) hbytes,
    ?_, ?_, held ++ bytes, Disk.read_append hread hj.allowed bytes, ?_⟩
  · rw [List.isEmpty_eq_false_iff.2 (Text.entered_ne_nil text _)]
  · dsimp only
    rw [Disk.refusal?_append hread hj.allowed]
    exact hj.allowed
  · rw [Text.entered, List.append_assoc, Utf8.encode?_append_eq_some]
    exact ⟨held, bytes, hheld, hbytes, rfl⟩

theorem result_logAt_low (hj : Journal p text h) (he : e.Shallow) (hv : ¬ Level.info ≤ e.level)
    (now : Instant) : ∃ k, (logAt now e).result h = (.ok (), k) ∧ Journal p text k := by
  rw [result_logAt_eq he]
  unfold logRecord
  rw [if_neg hv]
  exact ⟨_, rfl, hj.target, hj.allowed, hj.read⟩

/-- A log file has one paragraph more for each event of a level that is logged, in order. -/
theorem result_logAll (hj : Journal p text h) (hc : text.Closed) (hl : text.Of Symbol.Lasting)
    (he : ∀ x ∈ events, x.2.Ordinary ∧ x.2.Lasting) :
    ∃ k text' blocks, (logAll events).result h = (.ok (), k) ∧ Journal p text' k ∧
      text'.Of Symbol.Lasting ∧ text'.paragraphs = text.paragraphs ++ blocks ∧
      List.Forall₂ (fun x ls => x.2.Shows x.1 ls)
        (events.filter fun x => Level.info ≤ x.2.level) blocks := by
  induction events generalizing text h with
  | nil => exact ⟨h, text, [], rfl, hj, hl, (List.append_nil _).symm, .nil⟩
  | cons x events ih =>
    obtain ⟨ho, hx⟩ := he x List.mem_cons_self
    have hrest : ∀ y ∈ events, y.2.Ordinary ∧ y.2.Lasting :=
      fun y hy => he y (List.mem_cons_of_mem x hy)
    have hcons : logAll (x :: events) = logAt x.1 x.2 >>= fun _ => logAll events := rfl
    rw [hcons]
    by_cases hv : Level.info ≤ x.2.level
    · have hbody := Event.ofLasting_body ho hx x.1
      obtain ⟨m, hlog, hm⟩ := result_logAt hj ho (fun s hs => (hbody s hs).2) hv
      obtain ⟨k, text', blocks, hrun, hk, hl', hblocks, hshows⟩ :=
        ih hm (Text.closed_entered text _) (.entered (by decide) hl hbody) hrest
      refine ⟨k, text', x.2.block x.1 :: blocks, by rw [result_bind_ok hlog, hrun], hk, hl', ?_, ?_⟩
      · rw [hblocks, Text.paragraphs_entered hc, Event.paragraphs_body ho hx, List.append_assoc]
        rfl
      · rw [List.filter_cons, if_pos (decide_eq_true hv)]
        exact .cons (Event.shows_block ho.own x.1) hshows
    · obtain ⟨m, hlog, hm⟩ := result_logAt_low hj ho.shallow hv x.1
      obtain ⟨k, text', blocks, hrun, hk, hl', hblocks, hshows⟩ := ih hm hc hl hrest
      refine ⟨k, text', blocks, by rw [result_bind_ok hlog, hrun], hk, hl', hblocks, ?_⟩
      rwa [List.filter_cons, if_neg (by simpa using hv)]

end

/-- The text of a log file is read with its line ends unified. -/
theorem result_readText (hj : Journal p text h) :
    (readText p).result h = (.ok text.unifyNewlines, h) := by
  obtain ⟨bytes, hread, hbytes⟩ := hj.read
  have htake : (take (h.disk.read p)).result h = (.ok bytes, h) := by
    rw [hread]
    rfl
  rw [readText, result_bind_ok (result_get h), result_bind_ok htake, Utf8.decode_encode? hbytes]
  rfl

/-! A program that starts with an empty log file. -/

def emptyLog : Host :=
  { now := ⟨0⟩
    disk := { nodes := [(Path.ofText "x.log", .file [])] }
    target := .file (Path.ofText "x.log") true }

theorem journal_emptyLog : Journal (Path.ofText "x.log") [] emptyLog := ⟨rfl, rfl, [], rfl, rfl⟩

def started (command : Text) : Event := ⟨"app_start", Level.info, [("command", .str command)]⟩

section

variable [Runtime]

theorem started_ordinary (command : Text) : (started command).Ordinary where
  name := (by decide : Text.OfLine "app_start")
  names := by
    intro f hf
    rw [List.mem_singleton.1 hf]
    exact (by decide : Text.OfLine "command")
  own := by
    intro f hf
    rw [List.mem_singleton.1 hf]
    exact (by decide : ("command" : Text) ≠ "event")
  fits := by
    intro f hf
    rw [List.mem_singleton.1 hf]
    rfl
  shallow := .of_nestings rfl

end

theorem started_lasting {command : Text} (hc : command.Of Symbol.Lasting) :
    (started command).Lasting := by
  intro f hf t ht
  rw [List.mem_singleton.1 hf] at ht
  cases ht
  exact hc

theorem orderedNames_started (command : Text) (now : Instant) :
    Log.Block.orderedNames "app_start" (((started command).fieldsRead now).erase "event") =
      (["ts", "level", "command", "logger", "ts_utc"] : List Text) := by
  have hsort : (["logger", "ts_utc"] : List Text) = Text.sort ["ts_utc", "logger"] :=
    Text.sort_unique (List.Perm.swap _ _ []) (by decide)
  exact congrArg ((["ts", "level", "command"] : List Text) ++ ·) hsort.symm

theorem block_started (command : Text) (now : Instant) : (started command).block now =
    ("=== app_start ===" : Text) :: (["ts", "level", "command", "logger", "ts_utc"] : List Text).map
      fun n => n ++ ": " ++ Log.Block.line
        (((((started command).fieldsRead now).erase "event").find? n).getD .null) := by
  rw [← orderedNames_started command now]
  exact congrArg (("=== app_start ===" : Text) :: ·) (List.append_nil _)

section

variable [Runtime]

/-! What is read in the end. -/

/-- Events that are logged to a file that is empty yet are its paragraphs, in order, as long as no text
among their values holds a carriage return or half of a surrogate pair: each paragraph is the name of
its event and then one line for each field that is not null. -/
theorem paragraphs_logAll (hj : Journal p [] h) (ho : ∀ x ∈ events, x.2.Ordinary)
    (hl : ∀ x ∈ events, x.2.Lasting) : ∃ k text, (logAll events).result h = (.ok (), k) ∧
      (readText p).result k = (.ok text, k) ∧
      List.Forall₂ (fun x ls => x.2.Shows x.1 ls)
        (events.filter fun x => Level.info ≤ x.2.level) text.paragraphs := by
  obtain ⟨k, text, blocks, hrun, hk, hlasting, hblocks, hshows⟩ :=
    result_logAll hj (.inl rfl) (fun s hs => by cases hs) fun x hx => ⟨ho x hx, hl x hx⟩
  have hreturn : Symbol.char '\r' ∉ text := fun hm => (hlasting _ hm).1 rfl
  refine ⟨k, text, hrun, ?_, by rwa [hblocks]⟩
  rw [result_readText hk, Text.unifyNewlines_eq_self hreturn]

end

theorem paragraphs_logAll_escaped : ∃ k text,
    (logAll [(⟨0⟩, started "run\n\n=== app_stop ==="), (⟨1⟩, started "serve")]).result emptyLog =
      (.ok (), k) ∧
    (readText (Path.ofText "x.log")).result k = (.ok text, k) ∧
    List.Forall₂ (fun (x : Instant × Event) ls => x.2.Shows x.1 ls)
      ([(⟨0⟩, started "run\n\n=== app_stop ==="), (⟨1⟩, started "serve")].filter
        fun x => Level.info ≤ x.2.level) text.paragraphs := by
  refine paragraphs_logAll journal_emptyLog ?_ ?_
  · intro x hx
    rcases List.mem_cons.1 hx with rfl | hx
    · exact started_ordinary _
    · rw [List.mem_singleton.1 hx]
      exact started_ordinary _
  · intro x hx
    rcases List.mem_cons.1 hx with rfl | hx
    · exact started_lasting (by decide)
    · rw [List.mem_singleton.1 hx]
      exact started_lasting (by decide)

/-- A carriage return is not escaped and is read as a line end, so that a text in a field of one event
comes to look like another event. -/
theorem paragraphs_forged : ∃ k text,
    (logAll [(⟨0⟩, started "run\r\r=== app_stop ===")]).result emptyLog = (.ok (), k) ∧
    (readText (Path.ofText "x.log")).result k = (.ok text, k) ∧
    text.paragraphs = ([
      ["=== app_start ===", "ts: 1970-01-01T00:00:00+00:00", "level: INFO", "command: run"],
      ["=== app_stop ===", "logger: root", "ts_utc: 1970-01-01T00:00:00.000Z"]] :
        List (List Text)) := by
  have hbody := congrArg (Text.joinWith "\n") (block_started "run\r\r=== app_stop ===" ⟨0⟩)
  have hencodable : ((started "run\r\r=== app_stop ===").body ⟨0⟩).Encodable := by
    rw [Event.body, hbody]
    decide +kernel
  obtain ⟨k, hlog, hk⟩ :=
    result_logAt journal_emptyLog (started_ordinary _) hencodable (Int.le_refl _)
  refine ⟨k, _, ?_, result_readText hk, ?_⟩
  · exact result_bind_ok hlog _
  · rw [Event.body, hbody]
    decide +kernel

end Job
end ClipActions
