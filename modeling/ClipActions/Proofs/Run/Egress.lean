import ClipActions.Proofs.Run.Course

/-!
No text leaves a run that has not passed the gate: no model service is opened or called, nothing is
copied, and the code of the action has no say in what happens. What passes is a matter of safe mode,
of where the provider is, of two flags and of one answer.
-/
namespace ClipActions

open Host (Adds)

open Job (Keeps)

def Effect.Leaves : Effect → Prop
  | .called .. | .copied _ => True
  | _ => False

def Effect.Stays (e : Effect) : Prop := ¬ e.Leaves

theorem Effect.Logs.stays {name : Text} {e : Effect} (h : e.Logs name) : e.Stays := by
  cases e with
  | logged target level record => exact id
  | _ => cases h

/-- An action with other code. -/
def Action.recode (code : Action → Task → Program Json) (a : Action) : Action :=
  { a with run := code a }

/-- A registry of the same actions with other code. -/
def Registry.recode (code : Action → Task → Program Json) (registry : Registry) : Registry :=
  ⟨registry.actions.map (Action.recode code)⟩

namespace Registry

variable {registry : Registry} {code : Action → Task → Program Json} {name : Json}

theorem ids_recode : (registry.recode code).ids = registry.ids := by
  unfold ids recode
  rw [List.map_map]
  rfl

theorem resolve_recode (t : Text) :
    (registry.recode code).resolve t = (registry.resolve t).map (Action.recode code) := by
  unfold resolve owner? recode
  rw [List.find?_map]
  rfl

theorem lookUp_recode : (registry.recode code).lookUp name =
    (registry.lookUp name).map (Option.map (Action.recode code)) := by
  unfold lookUp
  cases name with
  | str t => simp [resolve_recode, Except.map]
  | _ => rfl

end Registry

namespace Gate

section

variable [Runtime]

/-- Safe mode is on, and the provider is not on this machine. -/
def Judged (config : Json) (p : Provider) : Prop :=
  (∃ v, safeMode config = .ok v ∧ v.truthy = true) ∧
    Provider.ofConfig (.ofJson config) = .ok p ∧ Provider.isCloud p.type p.endpoint = true

/-- Safe mode is off, or the provider is on this machine. -/
def Exempt (config : Json) : Prop :=
  ∃ v, safeMode config = .ok v ∧ (v.truthy = false ∨
    ∃ p, Provider.ofConfig (.ofJson config) = .ok p ∧ Provider.isCloud p.type p.endpoint = false)

end

variable {config : Json} {p : Provider}

variable [Runtime]

theorem result_pass_exempt (he : Exempt config) (request : Request) (h : Host) :
    (pass config request).result h = (.ok (), h) := by
  obtain ⟨v, hv, hoff | ⟨p, hp, hlocal⟩⟩ := he
  · rw [result_pass, hv]
    dsimp only
    rw [if_neg (by simp [hoff])]
  · rw [result_pass, hv, hp]
    dsimp only
    rw [if_neg (show ¬ Provider.isCloud p.type p.endpoint = true by simp [hlocal])]
    split <;> rfl

theorem result_pass_judged (hj : Judged config p) (request : Request) (h : Host) :
    (pass config request).result h = (judge p request).result h := by
  obtain ⟨⟨v, hv, hon⟩, hp, hcloud⟩ := hj
  rw [result_pass, hv, hp]
  dsimp only
  rw [if_pos hon, if_pos hcloud]

end Gate

namespace Run

variable {registry : Registry} {name : Json} {o : Options} {ctx : Context} {ask : Gate.Asker}
  {host h k : Host} {r : Run} {code : Action → Task → Program Json}

theorem agentTold_stays : Agent.Told Effect.Stays := ⟨fun _ _ _ => id, fun _ h => h.stays⟩

section

variable [Runtime]

/-- A run with other code is under way wherever the run is. -/
theorem UnderWay.recode (u : UnderWay registry name o ctx host r h) :
    UnderWay (registry.recode code) name o ctx host { r with action := r.action.recode code } h :=
  { u with
    action := by
      rw [Registry.lookUp_recode, u.action]
      rfl
    provenance := u.provenance }

/-- A run that does not pass the gate leaves nothing behind but what stays, whatever its code. -/
theorem held_stays (u : UnderWay registry name o ctx host r h)
    (hask : ∀ m, Keeps (Adds Effect.Stays) (ask m)) {e : Halt}
    (hg : (Gate.pass r.config (r.request ctx.daemon ask)).result h = (.error e, k)) :
    Adds Effect.Stays host ((perform registry name o ctx ask).result host).2 ∧
      ∀ code, (perform (registry.recode code) name o ctx ask).result host =
        (perform registry name o ctx ask).result host := by
  have f := Host.frame_adds Effect.Stays
  -- The gate reads nothing of the action, so that any other action in its place is held as well.
  have hheld : ∀ a : Action,
      (({ r with action := a } : Run).finish ctx ask).result h =
        (r.conclude ctx.historyFile { ending := .error e }).result k := by
    intro a
    rw [result_finish, Job.result_bind, result_proceed]
    have hga : (Gate.pass ({ r with action := a } : Run).config
        (({ r with action := a } : Run).request ctx.daemon ask)).result h = (.error e, k) := hg
    rw [hga]
    rfl
  refine ⟨?_, fun code => ?_⟩
  · have hacquire : Adds Effect.Stays host h :=
      (acquire_keeps f agentTold_stays o ctx).after u.acquired
    have hpass : Adds Effect.Stays h k :=
      (Gate.pass_inherits f.hereditary (fun _ hx => hx.logs.stays) fun _ => hask _).after hg
    rw [result_perform u]
    have hfinish := hheld r.action
    rw [hfinish]
    exact (hacquire.trans hpass).trans
      (conclude_adds _ _ (fun _ => id) (fun _ _ => id) (fun _ hx => hx.logs.stays)
        (fun _ hx => hx.logs.stays) k)
  · rw [result_perform u, result_perform u.recode, hheld]
    exact (hheld r.action).symm

/-- Nor does a run that does not get under way. -/
theorem unstarted_stays (hn : ¬ ∃ r h, UnderWay registry name o ctx host r h) :
    Adds Effect.Stays host ((perform registry name o ctx ask).result host).2 ∧
      ∀ code, (perform (registry.recode code) name o ctx ask).result host =
        (perform registry name o ctx ask).result host := by
  have f := Host.frame_adds Effect.Stays
  have hacquire : Keeps (Adds Effect.Stays) (acquire o ctx) :=
    acquire_keeps f agentTold_stays o ctx
  have hlook : ∀ {code found}, registry.lookUp name = .ok found →
      (registry.recode code).lookUp name = .ok (found.map (Action.recode code)) := by
    intro code found h
    rw [Registry.lookUp_recode, h]
    rfl
  obtain hu | ⟨m, hm⟩ | hnone | ⟨a, e, k, ha, hq⟩ | ⟨a, text, config, m, k, ha, hq, hp⟩ :=
    perform_cases registry name o ctx host
  · exact absurd hu hn
  · have hr : ∀ code, (registry.recode code).lookUp name = .error m := fun code => by
      rw [Registry.lookUp_recode, hm]
      rfl
    rw [result_perform_misused hm]
    exact ⟨f.refl host, fun code => result_perform_misused (hr code) ask⟩
  · have hreport : ∀ registry : Registry, Keeps (Adds Effect.Stays)
        (do reportUnknown registry name; return (1 : Int)) := fun registry =>
      f.hereditary.bind
        (reportUnknown_inherits f.hereditary (fun _ => id) (fun _ h => h.stays) _ _) fun _ => f.pure _
    rw [result_perform_unknown hnone]
    refine ⟨hreport registry host, fun code => ?_⟩
    rw [result_perform_unknown (hlook hnone)]
    unfold reportUnknown
    rw [Registry.ids_recode]
  · rw [result_perform_unacquired ha hq]
    have hreport : ∀ t, Effect.Stays (.complained t) := fun _ => id
    have htold : Keeps (Adds Effect.Stays)
        (do reportError (Secret.redact e.message); return 1 : Job Int) :=
      f.hereditary.bind (f.emit (hreport _)) fun _ => f.pure _
    refine ⟨(hacquire.after hq).trans (htold k), fun code => ?_⟩
    exact result_perform_unacquired (hlook ha) hq ask
  · rw [result_perform_unprovided ha hq hp]
    exact ⟨hacquire.after hq, fun code => result_perform_unprovided (hlook ha) hq hp ask⟩

/-- Every later host of a run has the trace of the host behind the gate, and more. -/
theorem passed_stays (u : UnderWay registry name o ctx host r h)
    (hask : ∀ m, Keeps (Adds Effect.Stays) (ask m))
    (hg : (Gate.pass r.config (r.request ctx.daemon ask)).result h = (.ok (), k)) :
    Adds Effect.Stays host k ∧ ∃ es, ((perform registry name o ctx ask).result host).2.trace =
      k.trace ++ es := by
  have f := Host.frame_adds Effect.Stays
  have hacquire : Adds Effect.Stays host h :=
    (acquire_keeps f agentTold_stays o ctx).after u.acquired
  have hpass : Adds Effect.Stays h k :=
    (Gate.pass_inherits f.hereditary (fun _ hx => hx.logs.stays) fun _ => hask _).after hg
  refine ⟨hacquire.trans hpass, ?_⟩
  have any := (Host.frame_adds fun _ => True).hereditary
  have hafter : Keeps (Adds fun _ => True) r.afterGate :=
    afterGate_inherits any (fun _ => trivial) Model.told_any (fun _ _ => trivial)
      (fun _ _ => trivial)
  have hrest : Keeps (Adds fun _ => True) (r.afterGate >>= r.conclude ctx.historyFile) :=
    any.bind hafter fun w => conclude_adds _ w (fun _ => trivial) (fun _ _ => trivial)
      (fun _ _ => trivial) fun _ _ => trivial
  obtain ⟨es, hes, -⟩ := hrest k
  refine ⟨es, ?_⟩
  rw [result_perform u, result_finish, ← hes, Job.result_bind, result_proceed, hg, Job.result_bind]

/-- Only a run that has passed the gate lets a text leave or lets its code have a say. The gate
passes every run where safe mode is off or the provider is on this machine; else it blocks whom
nobody watches, passes whom the flag allows, and asks once about the others. -/
theorem gate_guards_egress (registry : Registry) (name : Json) (o : Options) (ctx : Context)
    (ask : Gate.Asker) (hask : ∀ m, Keeps (Adds Effect.Stays) (ask m)) (host : Host) :
    ((Adds Effect.Stays host ((perform registry name o ctx ask).result host).2 ∧
        ∀ code, (perform (registry.recode code) name o ctx ask).result host =
          (perform registry name o ctx ask).result host) ∨
      ∃ r h k, UnderWay registry name o ctx host r h ∧
        (Gate.pass r.config (r.request ctx.daemon ask)).result h = (.ok (), k) ∧
        Adds Effect.Stays host k ∧
        ∃ es, ((perform registry name o ctx ask).result host).2.trace = k.trace ++ es) ∧
    (∀ config request h, Gate.Exempt config → (Gate.pass config request).result h = (.ok (), h)) ∧
    (∀ config p h, Gate.Judged config p →
      (∀ yes, ∃ k, Gate.Decided h k ∧ ∀ ask,
        (Gate.pass config { yes, daemon := true, ask }).result h =
          (.error (.failed (.blocked (Gate.label p))), k)) ∧
      (∃ k, Gate.Decided h k ∧ ∀ ask,
        (Gate.pass config { yes := true, ask }).result h = (.ok (), k)) ∧
      ∀ ask, Gate.Decided ((ask (Gate.question p)).result h).2
          ((Gate.pass config { ask }).result h).2 ∧
        (((Gate.pass config { ask }).result h).1 = .ok () ↔
          ((ask (Gate.question p)).result h).1 = .ok true)) ∧
    ∀ m h, ((Gate.askTerminal m).result h).1 = .ok true ↔
      (Gate.firstLine h.terminal).trim = "y" ∨ (Gate.firstLine h.terminal).trim = "Y" := by
  refine ⟨?_, fun config request h he => Gate.result_pass_exempt he request h, ?_, ?_⟩
  · by_cases hu : ∃ r h, UnderWay registry name o ctx host r h
    · obtain ⟨r, h, u⟩ := hu
      cases hg : (Gate.pass r.config (r.request ctx.daemon ask)).result h with
      | mk passed k =>
        cases passed with
        | error e => exact .inl (held_stays u hask hg)
        | ok _ =>
          obtain ⟨hstays, htrace⟩ := passed_stays u hask hg
          exact .inr ⟨r, h, k, u, hg, hstays, htrace⟩
    · exact .inl (unstarted_stays hu)
  · intro config p h hj
    simp only [Gate.result_pass_judged hj]
    refine ⟨fun yes => Gate.judge_daemon p yes h, Gate.judge_yes p h, fun ask => ?_⟩
    obtain ⟨k, hd, hk⟩ := Gate.judge_ask p ask h
    rw [hk]
    refine ⟨hd, ?_⟩
    rcases ((ask (Gate.question p)).result h).1 with e | agreed
    · simp
    · cases agreed <;> simp
  · intro m h
    rw [Gate.result_askTerminal]
    simp

end

/-- A provider in the cloud, in safe mode. -/
def cloudConfig : Json := .obj [("settings", .obj [("safe_mode", .bool true)]),
  ("provider", .obj [("type", .str "openai")])]

/-- Nobody watches, and the call is held back; somebody says `y`, and it passes. -/
theorem gate_guards_egress_cloud :
    (∃ k, (Gate.pass cloudConfig { daemon := true }).result (smallHost none) =
      (.error (.failed (.blocked "openai")), k)) ∧
    ((Gate.pass cloudConfig {}).result { smallHost none with terminal := "y\n" }).1 = .ok () := by
  have hask : ∀ m, Keeps (Adds Effect.Stays) (Gate.askTerminal m) :=
    Gate.askTerminal_keeps (Host.frame_adds _) fun e he => by
      cases e with
      | printed t => exact id
      | complained t => exact id
      | asked t => exact id
      | _ => cases he
  have hjudged : Gate.Judged cloudConfig { type := "openai", model := [] } :=
    ⟨⟨.bool true, rfl, rfl⟩, rfl, rfl⟩
  obtain ⟨-, -, hdecides, hterminal⟩ := gate_guards_egress ⟨[echo]⟩ (.str "e") {} smallContext
    Gate.askTerminal hask (smallHost none)
  refine ⟨?_, ?_⟩
  · obtain ⟨hdaemon, -, -⟩ := hdecides cloudConfig _ (smallHost none) hjudged
    obtain ⟨k, -, hk⟩ := hdaemon false
    exact ⟨k, hk Gate.askTerminal⟩
  · obtain ⟨-, -, hasked⟩ :=
      hdecides cloudConfig _ { smallHost none with terminal := "y\n" } hjudged
    exact (hasked Gate.askTerminal).2.2 ((hterminal _ _).2 (.inl (by decide)))

end Run
end ClipActions
