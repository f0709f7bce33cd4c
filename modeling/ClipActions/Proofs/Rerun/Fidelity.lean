import ClipActions.Proofs.Command.Dispatch
import ClipActions.Proofs.History.Sequence
import ClipActions.Proofs.Registry.Building
import ClipActions.Proofs.Rerun.Replay
import ClipActions.Proofs.Run.Audit
import ClipActions.Proofs.Run.Recorded

/-!
Replays are faithful. Whatever else stands in a history, a record that a run has left there is found
by its identifier. Its replay is a run of the same action with the same arguments on the same input,
and leaves one record more, of which all this can be said in its turn.
-/
namespace ClipActions

open History (Closed Holds Legible Writable hasId readable records stamped textOf)

open Host (Extends)

open Job (Keeps)

open Run (Asks Recorded UnderWay)

namespace Rerun

variable {registry : Registry} {rs : List History.Record} {c more line : Bytes}
  {record first : History.Record} {a : Action} {args : List Json} {input id : Text}
  {copy yes : Bool} {ctx : Context} {l : Path} {host : Host}

section

variable [Runtime]

/-! ### Histories of runs -/

/-- A history that runs have produced, and their records, the newest first. Any other lines may stand
in it, before these records, between them and behind them. -/
inductive Produced (registry : Registry) : List History.Record → Bytes → Prop where
  | nothing : Produced registry [] []
  | others {rs : List History.Record} {c more : Bytes} (before : Produced registry rs c)
    (hm : Closed more) : Produced registry rs (c ++ more)
  | run {rs : List History.Record} {c line : Bytes} {record : History.Record}
    (before : Produced registry rs c) (hr : Recorded registry record)
    (hl : Utf8.encode? (Json.obj record).write = some line) :
    Produced registry (record :: rs) (c ++ (line ++ [10]))

end

namespace Produced

variable [Runtime]

theorem closed (hp : Produced registry rs c) : Closed c := by
  induction hp with
  | nothing => exact .inl rfl
  | others _ hm ih => exact ih.append hm
  | run _ _ _ ih => exact ih.append (History.closed_line _)

theorem recorded (hp : Produced registry rs c) (hr : record ∈ rs) : Recorded registry record := by
  induction hp with
  | nothing => cases hr
  | others _ _ ih => exact ih hr
  | run _ hnew _ ih =>
    rcases List.mem_cons.1 hr with rfl | hr
    · exact hnew
    · exact ih hr

theorem mem_records (hp : Produced registry rs c) (hr : record ∈ rs) :
    record ∈ records (textOf c) := by
  -- What stands there ends in a line feed, so nothing that comes behind it changes how it is read.
  induction hp with
  | nothing => cases hr
  | others before _ ih => exact History.mem_records_behind before.closed (ih hr) _
  | run before hnew hl ih =>
    rcases List.mem_cons.1 hr with rfl | hr
    · exact History.mem_records_added before.closed hnew.isPlain hnew.nesting hl
    · exact History.mem_records_behind before.closed (ih hr) _

end Produced

/-! ### The run of a replay -/

/-- The provider of a run and what the run came to are texts that can be written. -/
structure Encodes (r : Run) (w : Run.Work) : Prop where
  type : r.provider.type.Encodable
  model : r.provider.model.Encodable
  ending : ∃ t : Text, w.outcome.field.2 = .str t ∧ t.Encodable

/-- What a replay of a record with an identifier, some arguments and an input is to do. -/
def again (id : Text) (args : List Json) (input : Text) (copy yes : Bool) : Run.Options where
  args
  copy
  yes
  input := some (.str input)
  source := some source
  trigger := some ("rerun:" ++ id)
  replayOf := .str id

section

variable [Runtime]

theorem options_eq (ha : Asks registry record a args input)
    (hid : record.find? "id" = some (.str id)) (copy yes : Bool) :
    options record copy yes = .ok (again id args input copy yes) := by
  have hargs : ((record.find? "args").getD .null |>.orElse (.arr [])).elements = .ok args := by
    rw [ha.args_eq]
    cases args <;> rfl
  have hneed : (Json.obj record).need "id" = .ok (.str id) := by
    unfold Json.need
    dsimp only
    rw [hid]
  unfold options
  rw [hargs, hneed, ha.input_eq]
  rfl

theorem result_acquire {config : Json} {h k : Host} (hi : input ≠ [])
    (hc : (Agent.config ctx).result h = (.ok config, k)) :
    (Run.acquire (again id args input copy yes) ctx).result h = (.ok (.str input, config), k) := by
  have htext : (Run.acquireText (again id args input copy yes) ctx).result h =
      (.ok (.str input), h) := by
    show (if (Json.str input).truthy then return .str input else Job.fail .emptyInput :
      Job Json).result h = _
    rw [if_pos (Json.truthy_str.2 hi)]
    rfl
  unfold Run.acquire
  rw [Job.result_bind_ok (Job.result_settle _ _), htext,
    Job.result_bind_ok (Job.result_settle _ _), hc]
  rfl

/-- A run does once more what a record with an identifier asks for. -/
structure Retakes (r : Run) (id : Text) (a : Action) (args : List Json) (input : Text) : Prop where
  provenance : r.provenance = ⟨a.id, source, "rerun:" ++ id⟩
  args_eq : r.options.args = args
  replayOf : r.options.replayOf = .str id
  text : r.text = .str input

/-- Once there is a configuration, the run of a replay is under way. -/
theorem underWay {config : Json} {h k : Host} (ha : Asks registry record a args input)
    (hc : (Agent.config ctx).result h = (.ok config, k)) (hp : Provider.Configured config) :
    ∃ r, UnderWay registry (.str a.id) (again id args input copy yes) ctx h r k ∧
      Retakes r id a args input := by
  obtain ⟨provider, u⟩ := Run.underWay_of_acquired ha.resolves (result_acquire ha.present hc) hp
  exact ⟨_, u, rfl, rfl, rfl, rfl⟩

end

/-- A record has the action, the arguments and the input of another. -/
def Repeats (q r : History.Record) : Prop :=
  ∀ name ∈ (["action", "args", "input"] : List Text),
    ∃ v, q.find? name = some v ∧ r.find? name = some v

namespace Retakes

variable {r : Run} {w : Run.Work}

variable [Runtime]

/-- Where the provider and the ending can be written, the whole record of a replay can be stored. -/
theorem storable (hr : Retakes r id a args input) (ha : Asks registry record a args input)
    (hid : id.Encodable) (he : Encodes r w) : r.Storable w := by
  obtain ⟨hname, hitems, htext⟩ := ha.encodable
  obtain ⟨ending, hending, hencodable⟩ := he.ending
  have hsource : source.Encodable := by decide
  have htrigger : ("rerun:" ++ id : Text).Encodable := fun t hm => by
    rcases List.mem_append.1 hm with hm | hm
    · exact (by decide : (Text.ofString "rerun:").Encodable) t hm
    · exact hid t hm
  refine ⟨⟨⟨input, hr.text⟩, fun output houtput => ?_, .inr ⟨id, hr.replayOf⟩, ?_⟩,
    Run.encodable_record.2 ?_⟩
  · rw [houtput] at hending
    exact ⟨ending, hending⟩
  · rw [hr.args_eq]
    exact ha.shallow
  · rw [hr.provenance, hr.args_eq, hr.text, hr.replayOf, hending]
    exact ⟨hname, hitems, hsource, htrigger, he.type, he.model, by simpa [Json.strings] using htext,
      by simpa [Json.strings] using hencodable, fun _ => by simpa [Json.strings] using hid⟩

/-- What the record of a replay has in common with the record that it replays, and what not. -/
theorem retells (hr : Retakes r id a args input) (ha : Asks registry record a args input)
    (hid : id ≠ []) (latency : Int) (outcome : Run.Outcome) (name : Text) (now : Instant) :
    Repeats record (stamped (r.record latency outcome) name now) ∧
      (stamped (r.record latency outcome) name now).find? "source" = some (.str "rerun") ∧
      (stamped (r.record latency outcome) name now).find? "trigger" =
        some (.str ("rerun:" ++ id)) ∧
      (stamped (r.record latency outcome) name now).find? "replay_of" = some (.str id) := by
  -- Stamping sets the identifier and the time, and `replay_of` comes last: all others are as known.
  have hfields : ∀ f ∈ r.known latency outcome,
      f.1 ∉ (["id", "timestamp", "replay_of"] : List Text) →
        (stamped (r.record latency outcome) name now).find? f.1 = some f.2 := by
    intro f hf hn
    rw [Run.find?_stored hn]
    exact Json.Fields.find?_of_mem (Run.known_nodup r latency outcome) hf
  unfold Run.known at hfields
  rw [hr.provenance, hr.args_eq, hr.text] at hfields
  simp only [List.forall_mem_cons] at hfields
  obtain ⟨haction, hargs, hsource, htrigger, -, -, -, -, -, hinput, -⟩ := hfields
  refine ⟨?_, hsource (by decide), htrigger (by decide), Run.find?_replayOf_str hr.replayOf hid⟩
  unfold Repeats
  simp only [List.forall_mem_cons]
  exact ⟨⟨_, ha.action_eq, haction (by decide)⟩, ⟨_, ha.args_eq, hargs (by decide)⟩,
    ⟨_, ha.input_eq, hinput (by decide)⟩, nofun⟩

end Retakes

section

variable [Runtime]

/-- A replay that is asked for: of which record, with which flags and in which surroundings. -/
structure Replay where
  id : Text
  copy : Bool
  yes : Bool
  ctx : Context
  source : Registry.Source
  host : Host

end

namespace Replay

variable [Runtime]

variable {q : Replay}

def result (q : Replay) : Except Halt Int × Host :=
  (Report.rerun (.str q.id) q.copy q.yes q.ctx q.source).result q.host

def searched (q : Replay) : Host := ((History.find? (.str q.id) q.ctx.historyFile).result q.host).2

def start (q : Replay) : Host := (q.source.get.result q.searched).2

/-- What a replay is asked for with. The record of a run is in a history that can be written, and no
other has its identifier; the registry is the one of that run; the agent has a configuration; and the
provider and what comes of the run are texts that can be written. -/
structure Ready (q : Replay) (registry : Registry) (rs : List History.Record) (c : Bytes)
    (record : History.Record) (l : Path) : Prop where
  produced : Produced registry rs c
  member : record ∈ rs
  named : record.find? "id" = some (.str q.id)
  distinct : ∀ r ∈ records (textOf c), hasId (.str q.id) r = true → r = record
  holds : Holds q.ctx.historyFile q.host.disk c
  writable : Writable q.ctx.historyFile l q.host.disk
  logOpen : q.host.LogOpen
  apart : Registry.Apart registry.actions
  loads : q.source.load = Plugin.loadDirectory
  found : (q.source.get.result q.searched).1 = .ok registry
  config : ∃ config, ((Agent.config q.ctx).result q.start).1 = .ok config ∧
    Provider.Configured config
  measurable : q.host.Measurable
  encodes : ∀ o r h w k, options record q.copy q.yes = .ok o →
    UnderWay registry ((record.find? "action").getD .null) o q.ctx q.start r h →
      r.Ends q.ctx.daemon Gate.askTerminal h w k → Encodes r w

namespace Ready

theorem hasId_record (hq : q.Ready registry rs c record l) : hasId (.str q.id) record = true := by
  unfold hasId
  rw [hq.named]
  simp [Json.same, Json.sameLeaf]

/-- The record is the one that is found. -/
theorem result_find? (hq : q.Ready registry rs c record l) (hc : Legible c) :
    (History.find? (.str q.id) q.ctx.historyFile).result q.host =
      (.ok (some record), q.searched) := by
  have hread : ((History.read .null q.ctx.historyFile).result q.host).1 =
      .ok (records (textOf c)) := by
    rw [History.result_readEvery hq.holds]
    exact History.readable_eq_ok.2 ⟨hc, rfl⟩
  have hfound : (records (textOf c)).find? (hasId (.str q.id)) = some record := by
    cases hf : (records (textOf c)).find? (hasId (.str q.id)) with
    | none =>
      have hno := List.find?_eq_none.1 hf record (hq.produced.mem_records hq.member)
      exact absurd hq.hasId_record hno
    | some r =>
      rw [hq.distinct r (List.mem_of_find?_eq_some hf) (List.find?_some hf)]
  refine Prod.ext ?_ rfl
  unfold History.find?
  rw [Job.result_bind_ok (Prod.ext hread rfl), hfound]
  rfl

theorem leads (hq : q.Ready registry rs c record l) :
    Extends Effect.Inner q.host q.start := by
  have hfind := History.find?_keeps (Host.frame_extends Effect.Inner) reportTold_inner.skipped
    (.str q.id) q.ctx.historyFile q.host
  exact (Host.frame_extends _).trans hfind (Command.get_extends hq.loads q.searched)

/-- A replay is the run of the action that its record names. -/
theorem result_eq (hq : q.Ready registry rs c record l) (hc : Legible c)
    (ha : Asks registry record a args input) :
    q.result = (Run.perform registry (.str a.id) (again q.id args input q.copy q.yes) q.ctx).result
      q.start := by
  have hneed : (Json.obj record).need "action" = .ok (.str a.id) := by
    unfold Json.need
    dsimp only
    rw [ha.action_eq]
  unfold result
  rw [Report.result_rerun, hq.result_find? hc]
  dsimp only
  unfold perform
  rw [hneed, options_eq ha hq.named, Job.result_bind_ok (Job.result_check_ok _ _),
    Job.result_bind_ok (Job.result_check_ok _ _),
    Job.result_bind_ok (Prod.ext hq.found rfl : _ = (_, q.start))]

/-- A replay leaves one record more, whatever comes of it. -/
theorem kept (hq : q.Ready registry rs c record l) (hc : Legible c) :
    ∃ (record' : History.Record) (line : Bytes),
      Recorded registry record' ∧ Utf8.encode? (Json.obj record').write = some line ∧ 10 ∉ line ∧
      q.host.Gains l (line ++ [10]) q.result.2 ∧ Repeats record record' ∧
      record'.find? "source" = some (.str "rerun") ∧
      record'.find? "trigger" = some (.str ("rerun:" ++ q.id)) ∧
      record'.find? "replay_of" = some (.str q.id) := by
  -- The record names an action that the registry has, so its run is under way again.
  have hrecorded := hq.produced.recorded hq.member
  obtain ⟨id, hid, hsome, hencodable⟩ := hrecorded.named
  obtain rfl : id = q.id := by
    rw [hq.named] at hid
    cases hid
    rfl
  obtain ⟨a, args, input, ha⟩ := hrecorded.asks hq.apart
  obtain ⟨config, hconfig, hconfigured⟩ := hq.config
  obtain ⟨r, u, hr⟩ := underWay ha (Prod.ext hconfig rfl) hconfigured
  have hask : ∀ m, Keeps (Extends fun _ => True) (Gate.askTerminal m) :=
    Gate.askTerminal_keeps (Host.frame_extends _) fun _ _ => trivial
  -- Up to there no more than logs has been written: the history and the timer are as at the start.
  have hlogged := hq.leads.logged
  have hsame := hlogged.sameLog hq.logOpen
  have htimer := ((Run.acquire_extends _ q.ctx).after u.acquired).timer.trans hq.leads.timer
  obtain ⟨w, k, he⟩ := Run.exists_ends (hq.measurable.of_suffix htimer) hask
  have hencodes : Encodes r w := by
    refine hq.encodes _ r _ w k (options_eq ha hq.named q.copy q.yes) ?_ he
    rwa [ha.action_eq]
  have hstorable := hr.storable ha hencodable hencodes
  obtain ⟨id', line, m, hdrawn, hline, hten, hgains, -, hresult⟩ := Run.result_kept u he hask
    hsame.logOpen (hq.writable.alike (hlogged.alike hq.logOpen)) hstorable
  refine ⟨_, line, .intro u he hstorable ha.plain hdrawn, hline, hten, ?_,
    hr.retells ha hsome _ _ _ _⟩
  have hhost := hgains.after (hlogged.gains hq.logOpen l) hsame
  rw [hq.result_eq hc ha, hresult]
  rcases w.ending with (f | i) | output <;> exact hhost

/-- What the history holds behind a replay, where the log goes elsewhere. -/
theorem content {k : Host} (hq : q.Ready registry rs c record l) (hl : ¬ q.host.LogsInto l)
    (hg : q.host.Gains l (line ++ [10]) k) : k.disk.contentOrEmpty l = c ++ (line ++ [10]) := by
  obtain ⟨before, after, hcontent, hempty⟩ := hg
  obtain ⟨rfl, rfl⟩ := hempty hl
  rw [hcontent, hq.writable.contentOrEmpty hq.holds]
  simp

theorem readable_kept (hq : q.Ready registry rs c record l) (hc : Legible c)
    {record' : History.Record} (hr : Recorded registry record')
    (hb : Utf8.encode? (Json.obj record').write = some line) :
    readable (c ++ (line ++ [10])) = .ok (record' :: records (textOf c)) := by
  rw [History.readable_added hq.produced.closed hr.isPlain hr.nesting hb,
    History.readable_eq_ok.2 ⟨hc, rfl⟩]
  rfl

end Ready
end Replay

section

variable [Runtime]

/-- A record to which replays have led from a first one, each the replay of the record that the
last one has left. -/
inductive Descends (registry : Registry) (first : History.Record) : History.Record → Prop where
  | first : Descends registry first first
  | replay {q : Replay} {rs earlier : List History.Record} {c : Bytes}
    {record record' : History.Record} {l : Path} (before : Descends registry first record)
    (hq : q.Ready registry rs c record l) (hc : Legible c) (hl : ¬ q.host.LogsInto l)
    (hn : readable (q.result.2.disk.contentOrEmpty l) = .ok (record' :: earlier)) :
    Descends registry first record'

end

theorem Repeats.trans {r : History.Record} (h : Repeats first record) (hr : Repeats record r) :
    Repeats first r := by
  intro name hn
  obtain ⟨v, hfirst, hv⟩ := h name hn
  obtain ⟨v', hv', hlast⟩ := hr name hn
  rw [hv] at hv'
  cases hv'
  exact ⟨v, hfirst, hlast⟩

section

variable [Runtime]

/-- What repeats the last record of a chain repeats the first. -/
theorem Descends.repeats {r : History.Record} (hd : Descends registry first record)
    (hr : Repeats record r) : Repeats first r := by
  induction hd with
  | first => exact hr
  | replay _ hq hc hl hn ih =>
    -- Nothing stands behind the line of the replay, so its record is the one that is read first.
    obtain ⟨kept, line, hrecorded, hline, -, hgains, hrepeats, -⟩ := hq.kept hc
    rw [hq.content hl hgains, hq.readable_kept hc hrecorded hline] at hn
    cases hn
    exact ih (hrepeats.trans hr)

/-- The replay of a record that a run has left appends one record with the same action, arguments and
input, and with the replay for its source, whatever the run and the replay have come to. Along every
chain of replays all three stay those of the first run. Of the lines in the history none may be nested
too deeply. -/
theorem replay_repeats {q : Replay} (hd : Descends registry first record)
    (hq : q.Ready registry rs c record l) (hc : Legible c) :
    ∃ (record' : History.Record) (line : Bytes),
      Utf8.encode? (Json.obj record').write = some line ∧ 10 ∉ line ∧
      q.host.Gains l (line ++ [10]) q.result.2 ∧
      Repeats record record' ∧ Repeats first record' ∧
      record'.find? "source" = some (.str "rerun") ∧
      record'.find? "trigger" = some (.str ("rerun:" ++ q.id)) ∧
      record'.find? "replay_of" = some (.str q.id) ∧
      (¬ q.host.LogsInto l →
        Produced registry (record' :: rs) (q.result.2.disk.contentOrEmpty l) ∧
        readable (q.result.2.disk.contentOrEmpty l) = .ok (record' :: records (textOf c)) ∧
        Descends registry first record') := by
  obtain ⟨record', line, hrecorded, hline, hten, hgains, hrepeats, hsource, htrigger, hreplay⟩ :=
    hq.kept hc
  refine ⟨record', line, hline, hten, hgains, hrepeats, hd.repeats hrepeats, hsource, htrigger,
    hreplay, fun hl => ?_⟩
  have hread := hq.readable_kept hc hrecorded hline
  have hcontent := hq.content hl hgains
  rw [← hcontent] at hread
  refine ⟨?_, hread, .replay hd hq hc hl hread⟩
  rw [hcontent]
  exact .run hq.produced hrecorded hline

end

/-! A small history, on which replays can be tried. -/

/-- The record of the small run, which a key has stopped. -/
def keptRecord : History.Record :=
  stamped (Run.smallRun.record 0 (.failure Run.interruptedMessage)) (RunId.make ⟨0⟩ []) ⟨0⟩

theorem recorded_kept : Recorded ⟨[Run.echo]⟩ keptRecord := by
  have u := Run.smallRun_underWay (some (.interrupted Run.pressedKey))
  have hends : ∃ k, Run.smallRun.Ends Run.smallContext.daemon Gate.askTerminal
      ((Run.acquire {} Run.smallContext).result
        (Run.smallHost (some (.interrupted Run.pressedKey)))).2
      { ending := .error (.interrupted Run.pressedKey) } k := ⟨_, .unready rfl rfl⟩
  obtain ⟨k, he⟩ := hends
  have hask : ∀ m, Keeps (Extends fun _ => True) (Gate.askTerminal m) :=
    Gate.askTerminal_keeps (Host.frame_extends _) fun _ _ => trivial
  have hnow : k.now = ⟨0⟩ :=
    (he.extended hask).now.trans ((Run.acquire_extends _ _).after u.acquired).now
  have hstorable : Run.smallRun.Storable { ending := .error (.interrupted Run.pressedKey) } :=
    ⟨⟨⟨_, rfl⟩, nofun, .inl rfl, by decide⟩, by decide⟩
  have hdrawn : History.Drawn k.now (RunId.make ⟨0⟩ []) := ⟨[], by rw [hnow]⟩
  have hrecorded := Recorded.intro u he hstorable rfl hdrawn
  rw [hnow] at hrecorded
  exact hrecorded

def keptLine : Bytes := (Utf8.encode? (Json.obj keptRecord).write).getD []

theorem encode?_kept : Utf8.encode? (Json.obj keptRecord).write = some keptLine := by
  have hsome : (Utf8.encode? (Json.obj keptRecord).write).isSome = true := by decide +kernel
  obtain ⟨line, hline⟩ := Option.isSome_iff_exists.1 hsome
  unfold keptLine
  rw [hline]
  rfl

/-- The replay of the record that the small run has left, in a history of some bytes. -/
def smallReplay (c : Bytes) : Replay where
  id := RunId.make ⟨0⟩ []
  copy := false
  yes := false
  ctx := Run.smallContext
  source := { dir := "actions" }
  host := { Run.smallHost none with
    disk := { nodes := [("h.jsonl", .file c)] }
    registry := some ⟨[Run.echo]⟩ }

def replayRun : Run :=
  let o := again (RunId.make ⟨0⟩ []) [] "hi" false false
  { action := Run.echo, options := o, provenance := .of Run.echo o Run.smallContext
    provider := { type := [], model := [] }, text := .str "hi", config := .obj [] }

theorem writable_small (c : Bytes) : Writable "h.jsonl" "h.jsonl" (smallReplay c).host.disk := by
  have hthere : (smallReplay c).host.disk.makeWithin (Path.parent "h.jsonl") =
      .ok (smallReplay c).host.disk := rfl
  have hmade : (smallReplay c).host.disk.makeDirectory (Path.parent "h.jsonl") =
      ((smallReplay c).host.disk, none) := by
    unfold Disk.makeDirectory
    exact Disk.makeAll_of_ok hthere
  refine ⟨?_, ?_, rfl⟩
  · rw [hmade]
  · rw [hmade]
    rfl

theorem holds_small (c : Bytes) : Holds "h.jsonl" (smallReplay c).host.disk c := .read rfl

/-- Whether the small replay gets a configuration, and comes to a text that can be written. -/
def settles (c : Bytes) : Bool :=
  match (Agent.config Run.smallContext).result (smallReplay c).start with
  | (.ok (.obj []), h) =>
    match ((replayRun.proceed false Gate.askTerminal).result h).1 with
    | .ok w => match w.outcome.field.2 with
      | .str t => t.all (!·.isLone)
      | _ => false
    | .error _ => false
  | _ => false

theorem found_small (c : Bytes) :
    ((smallReplay c).source.get.result (smallReplay c).searched).1 = .ok ⟨[Run.echo]⟩ := by
  have hregistry : (smallReplay c).searched.registry = (smallReplay c).host.registry :=
    History.find?_keeps (Host.frame_registry fun _ => True) (fun _ _ => trivial) _ _ _
  rw [Registry.result_get_of_some (hregistry.trans rfl)]

theorem ready_small {c : Bytes} (hp : Produced ⟨[Run.echo]⟩ [keptRecord] c)
    (hd : (records (textOf c)).length = 1) (hs : settles c = true) :
    (smallReplay c).Ready ⟨[Run.echo]⟩ [keptRecord] c keptRecord "h.jsonl" := by
  have hmem := hp.mem_records List.mem_cons_self
  obtain ⟨one, hone⟩ := List.length_eq_one_iff.1 hd
  rw [hone, List.mem_singleton] at hmem
  unfold settles at hs
  split at hs
  · rename_i h hconfig
    split at hs
    · rename_i w hw
      have ho : options keptRecord false false =
          .ok (again (RunId.make ⟨0⟩ []) [] "hi" false false) := rfl
      have u : UnderWay ⟨[Run.echo]⟩ ((Json.Fields.find? keptRecord "action").getD .null)
          (again (RunId.make ⟨0⟩ []) [] "hi" false false) Run.smallContext (smallReplay c).start
          replayRun h := ⟨rfl, rfl, rfl, result_acquire (by decide) hconfig, rfl⟩
      refine ⟨hp, List.mem_cons_self, rfl, fun r hr _ => ?_, holds_small c, writable_small c, nofun,
        by decide, rfl, found_small c, ⟨.obj [], congrArg Prod.fst hconfig, [], rfl, nofun⟩,
        Host.measurable_of_nil rfl, fun o r h' w' k ho' v he => ?_⟩
      · rw [hone, List.mem_singleton] at hr
        rw [hr, hmem]
      · -- A request determines its run, and a run its end: they are those that have been tried.
        obtain rfl := Except.ok.inj (ho.symm.trans ho')
        obtain ⟨rfl, rfl⟩ := u.unique v
        have hresult := congrArg Prod.fst he.result
        obtain rfl := Except.ok.inj (hw.symm.trans hresult)
        split at hs
        · rename_i t ht
          exact ⟨nofun, nofun, t, ht, by simpa [Text.Encodable] using hs⟩
        · cases hs
    · cases hs
  · cases hs

theorem produced_kept : Produced ⟨[Run.echo]⟩ [keptRecord] (keptLine ++ [10]) := by
  have hp := Produced.run .nothing recorded_kept encode?_kept
  rwa [List.nil_append] at hp

/-- The replay of a run that a key has stopped, with its text given back. -/
theorem replay_repeats_echo : ∃ (record' : History.Record) (line : Bytes),
    Utf8.encode? (Json.obj record').write = some line ∧
    (smallReplay (keptLine ++ [10])).result.2.disk.contentOrEmpty "h.jsonl" =
      keptLine ++ [10] ++ (line ++ [10]) ∧
    Repeats keptRecord record' ∧ record'.find? "replay_of" = some (.str "0-") := by
  have hread := History.readable_added (.inl rfl) recorded_kept.isPlain recorded_kept.nesting
    encode?_kept
  rw [List.nil_append] at hread
  obtain ⟨hc, hrecords⟩ := History.readable_eq_ok.1 hread
  have hq := ready_small produced_kept (by rw [← hrecords]; rfl) (by decide +kernel)
  have hl : ¬ (smallReplay (keptLine ++ [10])).host.LogsInto "h.jsonl" := nofun
  obtain ⟨record', line, hline, -, hgains, -, hrepeats, -, -, hreplay, -⟩ :=
    replay_repeats .first hq hc
  exact ⟨record', line, hline, hq.content hl hgains, hrepeats, hreplay⟩

/-- The history with that record and, behind it, a line of brackets that are nested too deeply. -/
def deepHistory : Bytes := keptLine ++ [10] ++ (List.replicate 3000 91 ++ [10])

/-- Whether a line that is nested too deeply stops the search for the record of a replay. -/
def stops (q : Replay) : Bool :=
  match ((History.find? (.str q.id) q.ctx.historyFile).result q.host).1 with
  | .error (.failed (.tooDeep _)) => true
  | _ => false

/-- A line that is nested too deeply stops the replay of a record before it, and nothing is
appended. -/
theorem replay_stops :
    (smallReplay deepHistory).Ready ⟨[Run.echo]⟩ [keptRecord] deepHistory keptRecord "h.jsonl" ∧
    (∃ container, (smallReplay deepHistory).result.1 = .error (.failed (.tooDeep container))) ∧
    (smallReplay deepHistory).result.2.disk = (smallReplay deepHistory).host.disk := by
  have hp : Produced ⟨[Run.echo]⟩ [keptRecord] deepHistory :=
    .others produced_kept (History.closed_line _)
  have hq := ready_small hp (by decide +kernel) (by decide +kernel)
  have hstops : stops (smallReplay deepHistory) = true := by decide +kernel
  -- From here on only these three facts about the bytes matter.
  generalize deepHistory = c at *
  have hopen : (smallReplay c).host.LogOpen := nofun
  have hfind := (History.find?_keeps (Host.frame_extends Effect.Inner) reportTold_inner.skipped
    (.str (smallReplay c).id) Run.smallContext.historyFile (smallReplay c).host).logged.disk hopen
  have hdisk : (smallReplay c).searched.disk = (smallReplay c).host.disk :=
    hfind.resolve_right nofun
  unfold stops at hstops
  split at hstops
  · rename_i container hdeep
    have hresult : (smallReplay c).result =
        (.error (.failed (.tooDeep container)), (smallReplay c).searched) := by
      unfold Replay.result
      rw [Report.result_rerun, (Prod.ext hdeep rfl : _ = (_, (smallReplay c).searched))]
    rw [hresult]
    exact ⟨hq, ⟨container, rfl⟩, hdisk⟩
  · cases hstops

end Rerun
end ClipActions
