import ClipActions.Proofs.Command.Reports
import ClipActions.Proofs.Registry.Loading
import ClipActions.Proofs.Rerun.Replay
import ClipActions.Proofs.Run.Passage
import ClipActions.Proofs.Run.Twins

/-!
A replay does not touch the live clipboard. Unless the record that it finds holds null for its input,
the text of the environment and what the agent would answer for the clipboard play no part in it.
-/
namespace ClipActions

open Host (Adds Frame)

open Job (Keeps)

/-! ### What the agent would answer for the clipboard -/

/-- The agents may answer anything for the clipboard. -/
def Bond.clipboard : Bond where
  hidden path := path = "/clipboard"

namespace Bond

variable {B : Bond}

variable [Runtime]

theorem Steady.loadDirectory (dir : Path) : B.Steady (Plugin.loadDirectory dir) := by
  have f := hereditary B
  have hrefused (file : Path) (refusal : Plugin.Refusal) :
      B.Steady (Plugin.warnRefused file refusal) :=
    Plugin.warnRefused_inherits f Registry.told_any file refusal
  have hfile (index : Nat) (file : Path) : B.Steady (Plugin.loadFile index file) := by
    refine get (fun _ _ _ _ => rfl) fun h => ?_
    rcases Plugin.judge (h.load (Plugin.moduleName index file) file) with e | refusal | a
    · exact throw e
    · exact (hrefused file refusal).bind fun _ => pure none
    · exact pure (some a)
  refine get (fun _ _ _ _ => rfl) fun h => (f.take _).bind fun there => Agrees.ite (pure []) ?_
  cases h.disk.list dir with
  | ok entries => exact Plugin.loadFiles_inherits f hfile _ _
  | error e => exact ((emit _).bind fun _ => log _).bind fun _ => pure []

/-- The registry of the process is the same on twin hosts. -/
theorem Steady.registry {s : Registry.Source} (hs : s.load = Plugin.loadDirectory) :
    B.Steady s.get := by
  have hload : B.Steady (s.load s.dir) := by
    rw [hs]
    exact loadDirectory s.dir
  have hbuild : B.Steady s.build := Registry.build_inherits (hereditary B) Registry.told_any hload
  refine get (fun _ _ _ _ => rfl) fun h => ?_
  cases h.registry with
  | some r => exact pure r
  | none =>
    refine hbuild.bind fun r => ?_
    have hkept : B.Steady (modify fun host => { host with registry := some r } : Job Unit) :=
      of_aside fun _ _ _ _ => rfl
    exact hkept.bind fun _ => pure r

end Bond

/-! ### A text that is given -/
namespace Run

variable {registry : Registry} {name : Json} {o : Options} {ctx : Context} {ask : Gate.Asker}
  {text : Json}

variable [Runtime]

/-- A run that is given its text does not look at the one of the environment. -/
theorem perform_given (ho : o.input = some text) (registry : Registry) (name : Json) (ctx : Context)
    (input : Option Text) (ask : Gate.Asker) :
    perform registry name o { ctx with input } ask = perform registry name o ctx ask := by
  have hacquire : acquire o { ctx with input } = acquire o ctx := by
    unfold acquire acquireText
    rw [ho]
    rfl
  have hstart (a : Action) : start a o { ctx with input } ask = start a o ctx ask := by
    unfold start
    rw [hacquire]
    rfl
  unfold perform
  simp only [hstart]

/-- A run that is given its text works on it. -/
theorem UnderWay.text_given {host h : Host} {r : Run} (u : UnderWay registry name o ctx host r h)
    (ho : o.input = some text) : r.text = text := by
  have htext := text_of_acquired u.acquired
  unfold acquireText at htext
  rw [ho, Job.result_bind_ok (Job.result_pure text host)] at htext
  dsimp only at htext
  split at htext
  · injection htext with htext
    exact htext.symm
  · cases htext

end Run

/-! ### No request for the clipboard -/

/-- An effect is no request for the clipboard. -/
def Effect.Aloof (e : Effect) : Prop := ∀ method body, e ≠ .requested method "/clipboard" body

namespace Effect

variable {name : Text} {x : Effect}

/-- What logs an event requests nothing. -/
theorem Logs.aloof (hx : x.Logs name) : x.Aloof := by
  rintro method body rfl
  cases hx

end Effect

theorem aloof_printed (t : Text) : (Effect.printed t).Aloof := by rintro method body ⟨⟩

theorem aloof_complained (t : Text) : (Effect.complained t).Aloof := by rintro method body ⟨⟩

theorem registryTold_aloof : Registry.Told Effect.Aloof where
  warning _ := aloof_complained _
  event _ hx := hx.logs.aloof

theorem runTold_aloof : Run.Told Effect.Aloof where
  model := ⟨fun _ hx => hx.aloof, fun _ hx => hx.logs.aloof, fun _ hx => hx.aloof,
    fun _ hx => hx.logs.aloof⟩
  decision _ hx := hx.logs.aloof
  printed _ := aloof_printed _
  called _ _ := by rintro method body ⟨⟩
  copied _ := by rintro method body ⟨⟩
  error _ := aloof_complained _

section

variable [Runtime]

/-- A run that is given its text does not ask for the clipboard. -/
theorem Run.perform_aloof {o : Options} {text : Json} (ho : o.input = some text)
    (registry : Registry) (name : Json) (ctx : Context) :
    Keeps (Adds Effect.Aloof) (perform registry name o ctx) := by
  intro host
  have f := Host.frame_adds Effect.Aloof
  have hconfig : Agent.Told.Of Effect.Aloof "GET" "/config" none := by
    refine ⟨fun method body he => ?_, fun _ hx => hx.aloof⟩
    injection he with _ hpath
    exact absurd hpath (by decide)
  have hacquire : Keeps (Adds Effect.Aloof) (acquire o ctx) := by
    refine acquire_keeps_of f (fun hn => ?_) hconfig
    rw [hn] at ho
    cases ho
  have hunknown : Keeps (Adds Effect.Aloof) (reportUnknown registry name) :=
    reportUnknown_inherits f.hereditary aloof_complained (fun _ hx => hx.aloof) registry name
  have hask (p : Provider) : Keeps (Adds Effect.Aloof) (Gate.askTerminal (Gate.question p)) :=
    Gate.askTerminal_inherits f.hereditary f.readLine (aloof_complained _)
  -- Whether a run comes about or not, the text has been given, so no text was asked for.
  obtain hadds | ⟨r, h, w, m, -, -, hadds, hconcluded⟩ :=
    perform_course f runTold_aloof hacquire hask (fun _ => hunknown) host
  · exact hadds
  · rw [hconcluded]
    exact hadds.trans (conclude_adds _ w (fun _ => aloof_complained _)
      (fun _ _ => aloof_complained _) (fun _ hx => hx.logs.aloof) (fun _ hx => hx.logs.aloof) m)

end

namespace Rerun

variable [Runtime]

variable {r : History.Record} {copy yes : Bool} {ctx : Context} {source : Registry.Source}

/-- The input that a record holds, which is empty if it holds none. -/
def stored (r : History.Record) : Json := (r.find? "input").getD (.str [])

/-- The options of a replay hand it the input of its record. -/
theorem perform_given (hn : r.find? "input" ≠ some .null) (copy yes : Bool) (ctx : Context)
    (source : Registry.Source) (input : Option Text) :
    perform r copy yes { ctx with input } source = perform r copy yes ctx source := by
  unfold perform
  cases ho : options r copy yes with
  | error m => rfl
  | ok o =>
    have hinput := options_input hn ho
    simp only [Job.check, pure_bind, Run.perform_given hinput]

theorem steady (hn : r.find? "input" ≠ some .null) (hs : source.load = Plugin.loadDirectory)
    (copy yes : Bool) (ctx : Context) : Bond.clipboard.Steady (perform r copy yes ctx source) := by
  have hconfig : ¬ Bond.clipboard.hidden "/config" :=
    (by decide : Text.ofString "/config" ≠ "/clipboard")
  unfold perform
  refine ((Bond.Steady.hereditary _).check _).bind fun name => ?_
  cases ho : options r copy yes with
  | error m => exact .fail _
  | ok o =>
    have hinput := options_input hn ho
    have hacquires : Bond.clipboard.Acquires o ctx := by
      refine ⟨hconfig, fun hnone => ?_⟩
      rw [hnone] at hinput
      cases hinput
    simp only [Job.check, pure_bind]
    exact (Bond.Steady.registry hs).bind fun registry => Bond.Steady.perform hacquires
      Bond.Steady.askTerminal fun a _ config config' he => he ▸ .refl a config

theorem aloof (hn : r.find? "input" ≠ some .null) (hs : source.load = Plugin.loadDirectory)
    (copy yes : Bool) (ctx : Context) :
    Keeps (Adds Effect.Aloof) (perform r copy yes ctx source) := by
  have f := Host.frame_adds Effect.Aloof
  have hregistry : Keeps (Adds Effect.Aloof) source.get :=
    Registry.get_keeps f registryTold_aloof (fun _ _ => .of_eq rfl) hs
  unfold perform
  refine f.hereditary.bind (f.hereditary.check _) fun name => ?_
  cases ho : options r copy yes with
  | error m => exact f.hereditary.fail _
  | ok o =>
    simp only [Job.check, pure_bind]
    exact f.hereditary.bind hregistry fun registry =>
      Run.perform_aloof (options_input hn ho) registry name ctx

end Rerun

namespace Report

section

variable [Runtime]

variable {id : Json} {copy yes : Bool} {ctx : Context} {source : Registry.Source} {h k : Host}

theorem rerun_steady (copy yes : Bool) (hs : source.load = Plugin.loadDirectory)
    (ht : Bond.clipboard.Twins h k)
    (hn : ∀ r m, (History.find? id ctx.historyFile).result h = (.ok (some r), m) →
      r.find? "input" ≠ some .null) :
    Bond.Ends Eq ((rerun id copy yes ctx source).result h).1
        ((rerun id copy yes ctx source).result k).1 ∧
      Bond.clipboard.Twins ((rerun id copy yes ctx source).result h).2
        ((rerun id copy yes ctx source).result k).2 := by
  have htold (line : Text) :
      Bond.clipboard.Steady (do Run.reportError line; return 1 : Job Int) :=
    (Bond.Steady.emit _).bind fun _ => .pure _
  obtain ⟨hends, htwins⟩ := Bond.Steady.find? (B := Bond.clipboard) id ctx.historyFile h k ht
  rw [result_rerun, result_rerun]
  generalize hr : (History.find? id ctx.historyFile).result h = found at hends htwins
  generalize (History.find? id ctx.historyFile).result k = found' at hends htwins
  obtain ⟨e, m⟩ := found
  obtain ⟨e', m'⟩ := found'
  obtain rfl := hends.eq
  rcases e with (f | i) | found
  · cases f with
    | os fault => exact htold _ m m' htwins
    | _ => exact ⟨.error _, htwins⟩
  · exact ⟨.error _, htwins⟩
  · cases found with
    | none => exact htold _ m m' htwins
    | some r => exact Rerun.steady (hn r m hr) hs copy yes ctx m m' htwins

theorem rerun_given (copy yes : Bool) (source : Registry.Source) (input : Option Text)
    (hn : ∀ r m, (History.find? id ctx.historyFile).result h = (.ok (some r), m) →
      r.find? "input" ≠ some .null) :
    (rerun id copy yes { ctx with input } source).result h =
      (rerun id copy yes ctx source).result h := by
  rw [result_rerun, result_rerun]
  dsimp only
  split
  · rename_i r k hr
    rw [Rerun.perform_given (hn r k hr)]
  all_goals rfl

/-- Asking for the clipboard is no part of a replay. -/
theorem rerun_aloof (copy yes : Bool) (hs : source.load = Plugin.loadDirectory)
    (hn : ∀ r m, (History.find? id ctx.historyFile).result h = (.ok (some r), m) →
      r.find? "input" ≠ some .null) :
    Adds Effect.Aloof h ((rerun id copy yes ctx source).result h).2 := by
  have f := Host.frame_adds Effect.Aloof
  have hfind : Keeps (Adds Effect.Aloof) (History.find? id ctx.historyFile) :=
    History.find?_keeps f (fun _ hx => hx.aloof) id ctx.historyFile
  have hline (line : Text) :
      Keeps (Adds Effect.Aloof) (do Run.reportError line; return 1 : Job Int) :=
    f.hereditary.bind (f.emit (aloof_complained _)) fun _ => f.pure _
  rw [result_rerun]
  split
  · rename_i r k hr
    exact f.trans (hfind.after hr) (Rerun.aloof (hn r k hr) hs copy yes ctx k)
  · rename_i k hr
    exact f.trans (hfind.after hr) (hline _ k)
  · rename_i fault k hr
    exact f.trans (hfind.after hr) (hline _ k)
  · rename_i e k _ hr
    exact hfind.after hr

/-- Twin hosts whose agents may answer anything for the clipboard differ in their agents alone. -/
theorem eq_of_twins (ht : Bond.clipboard.Twins h k) : k = { h with agent := k.agent } := by
  have htrace : h.trace = k.trace := by
    have heq := ht.trace
    rwa [show Bond.clipboard.effect = Eq from rfl, List.forall₂_eq_eq_eq] at heq
  have hopen : h.openHalt? = k.openHalt? := by
    funext operation arguments
    exact ht.opening operation arguments arguments rfl
  rw [htrace, hopen]
  exact ht.rest

/-- What a replay does and how it ends depends neither on the text of the environment nor on what
the agent would answer for the clipboard, for which it does not ask; and the action works on the
input of the record that is found. This is so unless the record holds null for its input. -/
theorem replay_ignores_clipboard (id : Json) (copy yes : Bool) (ctx : Context)
    {source : Registry.Source} (hs : source.load = Plugin.loadDirectory) (host : Host)
    {agent : Agent.Peer} (ha : Agent.Peer.Alike Bond.clipboard host.agent agent)
    (input : Option Text)
    (hn : ∀ r m, (History.find? id ctx.historyFile).result host = (.ok (some r), m) →
      r.find? "input" ≠ some .null) :
    (∃ agent', (rerun id copy yes { ctx with input } source).result { host with agent } =
      (((rerun id copy yes ctx source).result host).1,
        { ((rerun id copy yes ctx source).result host).2 with agent := agent' })) ∧
    Adds Effect.Aloof host ((rerun id copy yes ctx source).result host).2 ∧
    ∀ r m, (History.find? id ctx.historyFile).result host = (.ok (some r), m) →
      ∀ o, Rerun.options r copy yes = .ok o →
        ∀ registry name start run h, Run.UnderWay registry name o ctx start run h →
          run.task.text = Rerun.stored r := by
  have htwins : Bond.clipboard.Twins host { host with agent } := by
    refine ⟨rfl, ha, fun operation arguments arguments' he => ?_, List.forall₂_same.2 fun _ _ => rfl⟩
    cases he
    rfl
  have hfound := (Bond.Steady.find? id ctx.historyFile host _ htwins).1.eq
  have hn' : ∀ r m, (History.find? id ctx.historyFile).result { host with agent } =
      (.ok (some r), m) → r.find? "input" ≠ some .null := by
    intro r m hr
    rw [hr] at hfound
    exact hn r ((History.find? id ctx.historyFile).result host).2 (Prod.ext hfound rfl)
  obtain ⟨hends, hleft⟩ := rerun_steady copy yes hs htwins hn
  refine ⟨⟨((rerun id copy yes ctx source).result { host with agent }).2.agent, ?_⟩,
    rerun_aloof copy yes hs hn, fun r m hr o ho registry name start run h u => ?_⟩
  · rw [rerun_given copy yes source input hn']
    exact Prod.ext hends.eq.symm (eq_of_twins hleft)
  · exact u.text_given (Rerun.options_input (hn r m hr) ho)

/-! A small history with one record, on which a replay can be tried. -/

/-- An agent with a text on the clipboard. -/
def clipboardAgent (text : Text) : Agent.Peer :=
  .serving [("/config", [.reply 200 [123, 125]]),
    ("/clipboard", [.reply 200 ((Utf8.encode? (Json.obj [("text", .str text)]).write).getD [])])]

/-- A host whose history has one record, with an input. -/
def recordHost (input : Json) : Host :=
  let record : Json := .obj [("id", .str "r"), ("action", .str "e"), ("input", input)]
  { now := ⟨0⟩
    agent := clipboardAgent "live"
    disk := { nodes := [("h.jsonl", .file ((Utf8.encode? (record.write ++ "\n")).getD []))] }
    target := .nowhere
    registry := some ⟨[Run.echo]⟩ }

/-- A context without a text of its own. -/
def bareContext : Context := { Run.smallContext with input := none }

/-- Whether no record is found that has null for its input. -/
def presents (id : Json) (ctx : Context) (host : Host) : Bool :=
  match ((History.find? id ctx.historyFile).result host).1 with
  | .ok (some r) => !(Json.Fields.find? r "input").any Json.isNull
  | _ => true

end

/-- A record with a text for its input, another clipboard, and a text in the environment. -/
theorem replay_ignores_clipboard_echo :
    ∃ agent', (rerun (.str "r") false false { bareContext with input := some "set" }
        { dir := "actions" }).result { recordHost (.str "hi") with agent := clipboardAgent "other" } =
      (((rerun (.str "r") false false bareContext { dir := "actions" }).result
          (recordHost (.str "hi"))).1,
        { ((rerun (.str "r") false false bareContext { dir := "actions" }).result
          (recordHost (.str "hi"))).2 with agent := agent' }) := by
  have halike : Agent.Peer.Alike Bond.clipboard (clipboardAgent "live") (clipboardAgent "other") := by
    refine Agent.Peer.Alike.serving fun path hp => ?_
    have hclipboard : (path == "/clipboard") = false := beq_false_of_ne hp
    simp only [List.lookup_cons, hclipboard]
    cases path == "/config" with
    | false => exact .none
    | true => exact .some (.cons (.same _) .nil)
  have hinput : presents (.str "r") bareContext (recordHost (.str "hi")) = true := by decide +kernel
  refine (replay_ignores_clipboard (.str "r") false false bareContext rfl _ halike _
    fun r m hr hnull => ?_).1
  unfold presents at hinput
  rw [hr] at hinput
  dsimp only at hinput
  rw [hnull] at hinput
  cases hinput

def asksClipboard : Effect → Bool
  | .requested _ path _ => path = "/clipboard"
  | _ => false

/-- Of a record with null for its input, the replay asks for the clipboard. -/
theorem replay_asks_clipboard :
    ∃ e ∈ ((rerun (.str "r") false false bareContext { dir := "actions" }).result
      (recordHost .null)).2.trace, ∃ method body, e = .requested method "/clipboard" body := by
  have hany : ((rerun (.str "r") false false bareContext { dir := "actions" }).result
      (recordHost .null)).2.trace.any asksClipboard = true := by decide +kernel
  obtain ⟨e, he, hasks⟩ := List.any_eq_true.1 hany
  refine ⟨e, he, ?_⟩
  cases e with
  | requested method path body =>
    obtain rfl : path = "/clipboard" := of_decide_eq_true hasks
    exact ⟨method, body, rfl⟩
  | _ => cases hasks

end Report
end ClipActions
