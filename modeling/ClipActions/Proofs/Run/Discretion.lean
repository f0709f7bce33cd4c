import ClipActions.Proofs.Registry.Loading
import ClipActions.Proofs.Run.Passage
import ClipActions.Proofs.Secret.Redaction

/-!
What a run says of an error. Whoever it is told by, the user and the history never see a secret, nor
do the events of the run itself. The client of the model, its services and the agent log their errors
as they come.
-/
namespace ClipActions

open Host (Adds Frame)

open Job (Keeps)

/-- The events whose error or message is logged as it has come. -/
def outspoken : List Text := ["ai_error", "provider_log", "agent_request_error"]

/-- Nothing, or a text in which no secret stands. -/
def Guarded (v : Data) : Prop := v = .null ∨ ∃ t, v = .str t ∧ Secret.Clean t

/-- No error or warning on the standard error shows a secret, and no event but the outspoken ones. -/
def Effect.Discreet : Effect → Prop
  | .complained t => ("Error:" : Text) <+: t ∨ ("Warning:" : Text) <+: t → Secret.Clean t
  | .logged target level record => ∃ name, Effect.Tells name Guarded (.logged target level record) ∨
      name ∈ outspoken ∧ Effect.Logs name (.logged target level record)
  | _ => True

namespace Effect

variable {name : Text} {Q : Data → Prop} {x : Effect}

theorem Logs.discreet (h : x.Logs name) (hn : name ∈ outspoken) : x.Discreet := by
  cases x with
  | logged target level record => exact ⟨name, .inr ⟨hn, h⟩⟩
  | _ => cases h

theorem Tells.discreet (h : x.Tells name Q) (hs : ∀ v, Q v → Guarded v) : x.Discreet := by
  obtain ⟨target, now, e, rfl, -⟩ := id h
  exact ⟨name, .inl (h.mono hs)⟩

theorem Notes.discreet (h : x.Notes name) : x.Discreet := Tells.discreet h fun _ => False.elim

end Effect

namespace Secret

variable {t : Text}

/-- A report of a text without secrets shows none. -/
theorem Clean.report (h : Clean t) {label : Text} (hl : ∀ s ∈ label, s ∉ openings) :
    Clean (label ++ t ++ "\n") := (h.append_left hl).append_right (by decide)

theorem discreet_error (h : Clean t) : Effect.Discreet (.complained ("Error: " ++ t ++ "\n")) :=
  fun _ => h.report (by decide)

theorem discreet_warning (t : Text) :
    Effect.Discreet (.complained ("Warning: " ++ redact t ++ "\n")) :=
  fun _ => (clean_redact t).report (by decide)

end Secret

theorem Redacted.guarded {v : Data} (h : Redacted v) : Guarded v := by
  obtain ⟨t, rfl⟩ := h
  exact .inr ⟨_, rfl, Secret.clean_redact t⟩

theorem registryTold_discreet : Registry.Told Effect.Discreet where
  warning := Secret.discreet_warning
  event _ hx := hx.discreet fun _ => Redacted.guarded

section

variable [Runtime]

theorem Registry.get_discreet (s : Source) (hs : s.load = Plugin.loadDirectory) :
    Keeps (Adds Effect.Discreet) s.get :=
  get_keeps (Host.frame_adds _) registryTold_discreet (fun _ _ => .of_eq rfl) hs

end

namespace Run

variable {registry : Registry} {name : Json} {o : Options} {ctx : Context} {ask : Gate.Asker}
  {host h k : Host} {r : Run} {w : Work}

theorem agentTold_discreet : Agent.Told Effect.Discreet :=
  ⟨fun _ _ _ => trivial, fun _ hx => Effect.Logs.discreet hx (by decide)⟩

theorem modelTold_discreet : Model.Told Effect.Discreet :=
  ⟨fun _ hx => Effect.Logs.discreet hx (by decide), fun _ hx => hx.discreet,
    fun _ hx => Effect.Logs.discreet hx (by decide), fun _ hx => hx.discreet⟩

theorem clean_outcome {error : Text} (h : w.outcome = .failure error) : Secret.Clean error := by
  unfold Work.outcome at h
  split at h
  · cases h
  · cases h
    exact Secret.clean_redact _
  · cases h
    decide

theorem Outcome.Says.guarded {v : Data} (h : w.outcome.Says v) : Guarded v := by
  rcases h with rfl | ⟨error, ho, rfl⟩
  · exact .inl rfl
  · exact .inr ⟨error, rfl, clean_outcome ho⟩

section

variable [Runtime]

theorem conclude_discreet (file : Path) (w : Work) :
    Keeps (Adds Effect.Discreet) (r.conclude file w) :=
  conclude_adds file w Secret.discreet_warning (fun _ ho => Secret.discreet_error (clean_outcome ho))
    (fun _ hx => hx.discreet fun _ hv => hv.guarded)
    fun _ hx => hx.discreet fun _ => Redacted.guarded

end

theorem told_discreet : Told Effect.Discreet where
  model := modelTold_discreet
  decision _ hx := hx.discreet
  printed _ := trivial
  called _ _ := trivial
  copied _ := trivial
  error t := Secret.discreet_error (Secret.clean_redact t)

section

variable [Runtime]

theorem perform_discreet (hask : ∀ p, Keeps (Adds Effect.Discreet) (ask (Gate.question p)))
    {a : Action} (ha : registry.lookUp name = .ok (some a)) (o : Options) (ctx : Context)
    (host : Host) : Adds Effect.Discreet host ((perform registry name o ctx ask).result host).2 := by
  have hknown : registry.lookUp name = .ok none →
      Keeps (Adds Effect.Discreet) (reportUnknown registry name) := by
    intro hn
    rw [ha] at hn
    cases hn
  obtain hadds | ⟨r, h, w, m, -, -, hadds, hconcluded⟩ :=
    perform_course (Host.frame_adds _) told_discreet
      (acquire_keeps (Host.frame_adds _) agentTold_discreet o ctx) hask hknown host
  · exact hadds
  · rw [hconcluded]
    exact hadds.trans (conclude_discreet _ w m)

end

theorem clean_error {v : Json} (h : (r.record w.latency w.outcome).find? "error" = some v) :
    ∃ t, v = .str t ∧ Secret.Clean t := by
  rw [find?_record (by decide)] at h
  cases ho : w.outcome with
  | success output =>
    rw [ho] at h
    cases h
  | failure error =>
    rw [ho] at h
    cases h
    exact ⟨error, rfl, clean_outcome ho⟩

/-- The terminal is asked, and told of no error. -/
theorem askTerminal_discreet (p : Provider) :
    Keeps (Adds Effect.Discreet) (Gate.askTerminal (Gate.question p)) := by
  have f := Host.frame_adds Effect.Discreet
  have hquestion : Effect.Discreet (.complained (Gate.question p ++ " [y/N] ")) := by
    rintro (⟨t, ht⟩ | ⟨t, ht⟩)
    · cases ht
    · cases ht
  exact Gate.askTerminal_inherits f.hereditary f.readLine hquestion

section

variable [Runtime]

/-- A run shows no secret in an error or a warning, from the building of the registry on, nor does
any event of it but the outspoken ones; and the record that is kept of it has none in its error. -/
theorem reveals_nothing (dir : Path) (builtin : List Action) (name : Json) (o : Options)
    (ctx : Context) (ask : Gate.Asker) (host : Host)
    (hask : ∀ p, Keeps (Adds Effect.Discreet) (ask (Gate.question p)))
    (hname : ∀ registry k, (Registry.Source.get { dir, builtin }).result host = (.ok registry, k) →
      ∃ a, registry.lookUp name = .ok (some a)) :
    Adds Effect.Discreet host
      ((do perform (← Registry.Source.get { dir, builtin }) name o ctx ask : Job Int).result host).2 ∧
    ∀ registry k r h w m, (Registry.Source.get { dir, builtin }).result host = (.ok registry, k) →
      UnderWay registry name o ctx k r h → (r.proceed ctx.daemon ask).result h = (.ok w, m) →
        (do perform (← Registry.Source.get { dir, builtin }) name o ctx ask : Job Int).result host =
          (r.conclude ctx.historyFile w).result m ∧
        ∀ v, (r.record w.latency w.outcome).find? "error" = some v →
          ∃ t, v = .str t ∧ Secret.Clean t := by
  refine ⟨?_, fun registry k r h w m hr u hw => ⟨?_, fun v => clean_error⟩⟩
  · have hget := Registry.get_discreet { dir, builtin } rfl host
    rw [Job.result_bind]
    cases hr : (Registry.Source.get { dir, builtin }).result host with
    | mk result k =>
      rw [hr] at hget
      cases result with
      | error e => exact hget
      | ok registry =>
        obtain ⟨a, ha⟩ := hname registry k hr
        exact hget.trans (perform_discreet hask ha o ctx k)
  · rw [Job.result_bind_ok hr, result_perform u, result_finish, Job.result_bind_ok hw]

end

/-- An action that asks the model about its text. -/
def asking : Action where
  id := "ask"
  aliases := []
  description := "Asks the model"
  title := "Answer"
  run task := .askOnce (.known (.generate task.text .null)) id

/-- A host with a model service whose error holds a key. -/
def leakingHost : Host :=
  { smallHost none with
    target := .observer
    registry := some ⟨[asking]⟩
    service := [.error (.failed (.thrown {
      kind := "AuthenticationError", message := "sk-abcdefghijklmnop"
      service := some .authentication }))] }

def leakingRun : Run := { smallRun with action := asking, provenance := .of asking {} smallContext }

theorem leakingRun_underWay : UnderWay ⟨[asking]⟩ (.str "ask") {} smallContext leakingHost leakingRun
    ((acquire {} smallContext).result leakingHost).2 where
  action := rfl
  options := rfl
  provenance := rfl
  acquired := rfl
  provider := rfl

theorem reveals_nothing_key : Adds Effect.Discreet leakingHost
      ((do perform (← Registry.Source.get { dir := "actions" }) (.str "ask") {} smallContext :
        Job Int).result leakingHost).2 ∧
    ∃ w t, (leakingRun.record w.latency w.outcome).find? "error" = some (.str t) ∧
      Secret.Clean t ∧ ∃ m,
        (do perform (← Registry.Source.get { dir := "actions" }) (.str "ask") {} smallContext :
          Job Int).result leakingHost = (leakingRun.conclude "h.jsonl" w).result m := by
  have hregistry : ∀ registry k, (Registry.Source.get { dir := "actions" }).result leakingHost =
      (.ok registry, k) → ∃ a, registry.lookUp (.str "ask") = .ok (some a) := by
    intro registry k hr
    cases hr
    exact ⟨asking, rfl⟩
  obtain ⟨hadds, hkept⟩ := reveals_nothing "actions" Action.builtins (.str "ask") {} smallContext
    Gate.askTerminal leakingHost askTerminal_discreet hregistry
  obtain ⟨hconcluded, hclean⟩ := hkept ⟨[asking]⟩ leakingHost _ _ _ _ rfl leakingRun_underWay rfl
  obtain ⟨t, ht, hc⟩ := hclean (.str (Secret.redact "sk-abcdefghijklmnop")) rfl
  cases ht
  exact ⟨hadds, _, _, rfl, hc, _, hconcluded⟩

/-- What the events of a service's error show: the key that the error holds. -/
theorem reveals_key : ∃ (target : Log.Target) (now : Instant) (e : Log.Event) (t : Text),
    .logged target e.level (e.record now) ∈
      ((perform ⟨[asking]⟩ (.str "ask") {} smallContext).result leakingHost).2.trace ∧
    (("message", .str t) : Text × Data) ∈ e.fields ∧ ¬ Secret.Clean t := by
  let e : Log.Event := {
    name := "provider_log", level := Log.Level.error
    fields := [("provider", .str "openai"),
      ("message", .str "Authentication failed: sk-abcdefghijklmnop")] }
  have u := leakingRun_underWay
  have hproceed : ∃ w m, (leakingRun.proceed smallContext.daemon Gate.askTerminal).result
      ((acquire {} smallContext).result leakingHost).2 = (.ok w, m) ∧
        m.trace[4]? = some (.logged .observer e.level (e.record ⟨0⟩)) := ⟨_, _, rfl, rfl⟩
  obtain ⟨w, m, hw, htold⟩ := hproceed
  obtain ⟨es, hes, -⟩ : Adds (fun _ => True) m
      ((leakingRun.conclude smallContext.historyFile w).result m).2 :=
    conclude_adds _ _ (fun _ => trivial) (fun _ _ => trivial) (fun _ _ => trivial)
      (fun _ _ => trivial) m
  refine ⟨.observer, ⟨0⟩, e, _, ?_, List.mem_cons_of_mem _ List.mem_cons_self, by decide⟩
  rw [result_perform u, result_finish, Job.result_bind_ok hw, hes]
  exact List.mem_append_left _ (List.mem_of_getElem? htold)

end Run
end ClipActions
