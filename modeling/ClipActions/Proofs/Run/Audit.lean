import ClipActions.Proofs.Run.Keeping

/-!
The audit of runs. A run is kept exactly once if its name is known and its text and configuration
are acquired, however it ends; and otherwise it is not kept at all.
-/
namespace ClipActions

open History (Writable stamped)

open Host (Extends Gains Logged)

open Job (Keeps)

namespace Provider

/-- A configuration that is an object; the provider in it, if there is one, is an object too. -/
def Configured (config : Json) : Prop := ∃ fields : Json.Fields, config = .obj fields ∧
  ∀ v, fields.find? "provider" = some v → v = .null ∨ ∃ block, v = .obj block

theorem ofConfig_ok {config : Json} (hc : Configured config) :
    ∃ p, ofConfig (.ofJson config) = .ok p := by
  have htable : ∀ v : Data, (v = .null ∨ ∃ entries, v = .table entries) →
      ∃ p, ofBlock v.orEmpty = .ok p := by
    rintro v (rfl | ⟨entries, rfl⟩)
    · exact ⟨_, rfl⟩
    · unfold Value.orEmpty
      split
      · exact ⟨_, rfl⟩
      · exact ⟨_, rfl⟩
  obtain ⟨fields, rfl, hv⟩ := hc
  have hget : (Value.ofJson (.obj fields) : Data).get "provider" =
      .ok (((fields.find? "provider").map Value.ofJson).getD .null) := by
    rw [← Value.atName?_ofJsonFields]
    rfl
  unfold ofConfig
  rw [hget]
  refine htable _ ?_
  cases hf : fields.find? "provider" with
  | none => exact .inl rfl
  | some v =>
    rcases hv v hf with rfl | ⟨block, rfl⟩
    · exact .inl rfl
    · exact .inr ⟨_, rfl⟩

end Provider

namespace Run

variable {registry : Registry} {name : Text} {o : Options} {ctx : Context} {ask : Gate.Asker}
  {host h : Host} {l : Path}

/-- What is told of a name that no action has. -/
def unknown (registry : Registry) (name : Text) : Log.Event :=
  { name := "action_unknown", level := Log.Level.warning
    fields := [("action", .str name), ("available", .list (registry.ids.map .str))] }

section

variable [Runtime]

theorem shallow_unknown (registry : Registry) (name : Text) : (unknown registry name).Shallow := by
  intro f hf
  rcases List.mem_cons.1 hf with rfl | hf
  · exact Nat.zero_le _
  · obtain rfl := List.mem_singleton.1 hf
    exact Nat.le_trans (Log.nesting_texts registry.ids) Runtime.logDepth_pos

/-- A name that no action has is told of three times, and that is all. -/
theorem result_unknown (hn : registry.resolve name = none) (o : Options) (ctx : Context)
    (host : Host) : ∃ k, Logged host k ∧
      k.trace = host.trace ++ [
        .logged host.target Log.Level.warning ((unknown registry name).record host.now),
        .complained ("Error: " ++ Failure.message (.unknownAction name) ++ "\n"),
        .complained ("Available actions: " ++ Text.joinWith ", " registry.ids ++ "\n")] ∧
      ∀ ask, (perform registry (.str name) o ctx ask).result host = (.ok 1, k) := by
  have hlookUp : registry.lookUp (.str name) = .ok none := congrArg Except.ok hn
  obtain ⟨disk, target, hlog⟩ := Job.result_log_ok (shallow_unknown registry name) host
  have hkeeps := reportUnknown_inherits (Host.frame_extends fun _ => True).hereditary
    (fun _ => trivial) (fun _ _ => trivial) registry (.str name) host
  have hreport : (reportUnknown registry (.str name)).result host =
      (.ok (), { host with disk, target, trace := host.trace ++
        [.logged host.target Log.Level.warning ((unknown registry name).record host.now)] ++
          [.complained ("Error: " ++ Failure.message (.unknownAction name) ++ "\n")] ++
          [.complained ("Available actions: " ++ Text.joinWith ", " registry.ids ++ "\n")] }) := by
    show (Job.log (unknown registry name) >>= fun _ => (Job.complain _ >>= fun _ =>
      Job.complain _)).result host = _
    rw [Job.result_bind_ok hlog]
    rfl
  rw [hreport] at hkeeps
  refine ⟨_, hkeeps.logged, by simp, fun ask => ?_⟩
  rw [result_perform_unknown hlookUp, Job.result_bind_ok hreport]
  rfl

/-- A run whose text or configuration is not acquired ends with a complaint. -/
theorem result_unacquired {a : Action} {e : Halt} (hn : registry.resolve name = some a)
    (ha : (acquire o ctx).result host = (.error e, h)) (ask : Gate.Asker) :
    ∃ k, Logged host k ∧ (perform registry (.str name) o ctx ask).result host = (.ok 1, k) := by
  have hlookUp : registry.lookUp (.str name) = .ok (some a) := congrArg Except.ok hn
  obtain ⟨f, rfl⟩ := acquire_halts o ctx host e (by rw [ha])
  have hacquire : Extends (fun _ => True) host h := (acquire_extends o ctx).after ha
  refine ⟨{ h with
    trace := h.trace ++ [.complained ("Error: " ++ Secret.redact f.message ++ "\n")] },
    hacquire.logged.trans (.of_eq rfl rfl), ?_⟩
  rw [result_perform_unacquired hlookUp ha]
  rfl

/-- A run is under way once its action, its text and its configuration are known. -/
theorem underWay_of_acquired {a : Action} {text config : Json}
    (hn : registry.resolve name = some a)
    (ha : (acquire o ctx).result host = (.ok (text, config), h)) (hc : Provider.Configured config) :
    ∃ provider, UnderWay registry (.str name) o ctx host
      ⟨a, o, .of a o ctx, provider, text, config⟩ h := by
  obtain ⟨provider, hp⟩ := Provider.ofConfig_ok hc
  exact ⟨provider, congrArg Except.ok hn, rfl, rfl, ha, hp⟩

/-- Every run is kept exactly once, or not at all. One line is added to the history if the name is
known and the text and the configuration are acquired, with the identifier of the action, the
arguments and the text; an interruption has an error of its own there, and passes. Any other run
adds nothing and ends with 1, and an unknown name costs no request and no question. -/
theorem kept_exactly_once (registry : Registry) (name : Text) (o : Options) (ctx : Context)
    (ask : Gate.Asker) (host : Host) (l : Path)
    (hask : ∀ m, Keeps (Extends fun _ => True) (ask m)) (htimer : host.Measurable)
    (ho : host.LogOpen) (hw : Writable ctx.historyFile l host.disk)
    (hconfig : ∀ text config h, (acquire o ctx).result host = (.ok (text, config), h) →
      Provider.Configured config)
    (hends : ∀ r h w k, UnderWay registry (.str name) o ctx host r h →
      r.Ends ctx.daemon ask h w k → r.Storable w) :
    (registry.resolve name = none → ∃ k, host.Gains l [] k ∧
      k.trace = host.trace ++ [
        .logged host.target Log.Level.warning ((unknown registry name).record host.now),
        .complained ("Error: " ++ Failure.message (.unknownAction name) ++ "\n"),
        .complained ("Available actions: " ++ Text.joinWith ", " registry.ids ++ "\n")] ∧
      ∀ ask, (perform registry (.str name) o ctx ask).result host = (.ok 1, k)) ∧
    (∀ a e h, registry.resolve name = some a → (acquire o ctx).result host = (.error e, h) →
      ∃ k, host.Gains l [] k ∧
        (perform registry (.str name) o ctx ask).result host = (.ok 1, k)) ∧
    ∀ a text config h, registry.resolve name = some a →
      (acquire o ctx).result host = (.ok (text, config), h) →
      ∃ (r : Run) (w : Work) (k : Host) (record : Json.Fields) (id : Text) (line : Bytes),
        UnderWay registry (.str name) o ctx host r h ∧ r.Ends ctx.daemon ask h w k ∧
        record = stamped (r.record w.latency w.outcome) id k.now ∧
        Utf8.encode? (Json.obj record).write = some line ∧ 10 ∉ line ∧
        host.Gains l (line ++ [10]) ((perform registry (.str name) o ctx ask).result host).2 ∧
        record.find? "action" = some (.str a.id) ∧ record.find? "args" = some (.arr o.args) ∧
        record.find? "input" = some text ∧
        ∀ i, w.ending = .error (.interrupted i) →
          record.find? "error" = some (.str "Run interrupted") ∧
            ((perform registry (.str name) o ctx ask).result host).1 = .error (.interrupted i) := by
  refine ⟨fun hn => ?_, fun a e h hn ha => ?_, fun a text config h hn ha => ?_⟩
  · obtain ⟨k, hk, htrace, hresult⟩ := result_unknown hn o ctx host
    exact ⟨k, hk.gains ho l, htrace, hresult⟩
  · obtain ⟨k, hk, hresult⟩ := result_unacquired hn ha ask
    exact ⟨k, hk.gains ho l, hresult⟩
  · obtain ⟨provider, u⟩ := underWay_of_acquired hn ha (hconfig text config h ha)
    have hacquire : Extends (fun _ => True) host h := (acquire_extends o ctx).after ha
    have hend : ∃ w k, Ends ⟨a, o, .of a o ctx, provider, text, config⟩ ctx.daemon ask h w k :=
      exists_ends (htimer.of_suffix hacquire.timer) hask
    obtain ⟨w, k, he⟩ := hend
    obtain ⟨id, line, m, -, hline, hten, hgains, -, hresult⟩ :=
      result_kept u he hask ho hw (hends _ h w k u he)
    refine ⟨_, w, k, _, id, line, u, he, rfl, hline, hten, ?_, ?_, ?_, ?_, fun i hi => ?_⟩
    · rw [hresult]
      rcases w.ending with (f | i) | output <;> exact hgains
    · rw [find?_stored (by decide)]
      rfl
    · rw [find?_stored (by decide)]
      rfl
    · rw [find?_stored (by decide)]
      rfl
    · have houtcome : w.outcome = .failure interruptedMessage := by
        unfold Work.outcome
        rw [hi]
      rw [find?_stored (by decide), hresult, houtcome, hi]
      exact ⟨rfl, rfl⟩

end

def pressedKey : Interruption := .keyboard []

/-- A key that is pressed while the client is made leaves one line. -/
theorem kept_exactly_once_interrupted : ∃ (record : Json.Fields) (line : Bytes),
    Utf8.encode? (Json.obj record).write = some line ∧
    (smallHost (some (.interrupted pressedKey))).Gains "h.jsonl" (line ++ [10])
      ((perform ⟨[echo]⟩ (.str "e") {} smallContext).result
        (smallHost (some (.interrupted pressedKey)))).2 ∧
    record.find? "action" = some (.str "echo") ∧
    record.find? "error" = some (.str "Run interrupted") ∧
    ((perform ⟨[echo]⟩ (.str "e") {} smallContext).result
      (smallHost (some (.interrupted pressedKey)))).1 = .error (.interrupted pressedKey) := by
  generalize hhost : smallHost (some (.interrupted pressedKey)) = host
  have u := smallRun_underWay (some (.interrupted pressedKey))
  have hunready : ∃ k, smallRun.Ends smallContext.daemon Gate.askTerminal
      ((acquire {} smallContext).result (smallHost (some (.interrupted pressedKey)))).2
      { ending := .error (.interrupted pressedKey) } k := ⟨_, .unready rfl rfl⟩
  obtain ⟨k, he⟩ := hunready
  have hends : ∀ r h w k', UnderWay ⟨[echo]⟩ (.str "e") {} smallContext host r h →
      r.Ends smallContext.daemon Gate.askTerminal h w k' →
        smallRun = r ∧ { ending := .error (.interrupted pressedKey) } = w := by
    subst hhost
    intro r h w k' v hv
    obtain ⟨rfl, rfl⟩ := u.unique v
    have := he.result.symm.trans hv.result
    cases this
    exact ⟨rfl, rfl⟩
  obtain ⟨-, -, hkept⟩ := kept_exactly_once ⟨[echo]⟩ "e" {} smallContext Gate.askTerminal host
    "h.jsonl" (Gate.askTerminal_keeps (Host.frame_extends _) fun _ _ => trivial)
    (Host.measurable_of_nil (by rw [← hhost]; rfl)) (hhost ▸ smallHost_logOpen _)
    (hhost ▸ smallHost_writable _)
    (by
      intro text config h ha
      rw [← hhost] at ha
      cases u.acquired.symm.trans ha
      exact ⟨[], rfl, fun v hv => by cases hv⟩)
    (by
      intro r h w k' v hv
      obtain ⟨rfl, rfl⟩ := hends r h w k' v hv
      exact ⟨⟨⟨_, rfl⟩, (fun output ho => by cases ho), .inl rfl, by decide⟩, by decide⟩)
  obtain ⟨r, w, k', record, id, line, v, hv, -, hline, -, hgains, haction, -, -, hpassed⟩ :=
    hkept echo _ _ _ rfl (hhost ▸ u.acquired)
  obtain ⟨rfl, rfl⟩ := hends r _ w k' v hv
  obtain ⟨herror, hresult⟩ := hpassed pressedKey rfl
  exact ⟨record, line, hline, hgains, haction, herror, hresult⟩

end Run
end ClipActions
