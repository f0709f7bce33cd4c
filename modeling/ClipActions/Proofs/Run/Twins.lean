import ClipActions.Proofs.History.Reading
import ClipActions.Proofs.Host.Twins
import ClipActions.Proofs.Run.Course

/-!
Runs beside each other. On twin hosts a run does the same, as long as the two configurations that it
acquires lead it through the gate and to its model in the same way.
-/
namespace ClipActions.Bond

variable {B : Bond}

section

variable [Runtime]

/-! ### The gate -/

theorem Steady.askTerminal (message : Text) : B.Steady (Gate.askTerminal message) :=
  Gate.askTerminal_inherits (hereditary B) (of_parallel (Twins.likeness B).readLine) trivial

def Asks (B : Bond) (ask : Gate.Asker) : Prop := ∀ message, B.Steady (ask message)

/-- The gate judges by the settings and by the type and the endpoint of the provider. -/
theorem Steady.pass {request : Gate.Request} (ha : B.Asks request.ask) (config : Json) :
    B.Steady (Gate.pass config request) :=
  Gate.pass_inherits (hereditary B) (fun _ _ => trivial) fun _ => ha _

/-! ### The history -/

theorem Steady.append (file : Path) (e : History.Entry) : B.Steady (History.append file e) :=
  History.append_inherits (hereditary B) (of_parallel (Twins.likeness B).now)
    (of_parallel (Twins.likeness B).newRunId) (fun g => of_aside (.change g)) file e

theorem Steady.find? (id : Json) (file : Path) : B.Steady (History.find? id file) :=
  History.find?_inherits (hereditary B) (of_aside (.somethingAt file)) (of_aside (.readText file))
    (fun _ _ => trivial) id

/-! ### The model -/

/-- Two jobs open the same backend, whose answers are the same on twin hosts. -/
def Opens (B : Bond) (x y : Job Model.Backend) : Prop :=
  B.Agrees (fun b b' => b = b' ∧ ∀ r, B.Steady (b.complete r)) x y

theorem Opens.chat {url : Option Text} {key key' timeout : Json}
    (he : B.effect (.called "openai.init" [("base_url", Model.optional url), ("api_key", key),
        ("timeout", timeout), ("max_retries", .int 0)])
      (.called "openai.init" [("base_url", Model.optional url), ("api_key", key'),
        ("timeout", timeout), ("max_retries", .int 0)])) :
    B.Opens (Model.chat url key timeout) (Model.chat url key' timeout) :=
  (Agrees.openService he).bind fun _ _ _ =>
    .pure ⟨rfl, fun _ => (Steady.callService _ _ _).bind fun _ => .pure _⟩

def messageOpening (key timeout : Json) (url : Option Text) : Json.Fields :=
  let common : Json.Fields := [("api_key", key), ("timeout", timeout), ("max_retries", .int 0)]
  match url.filter (!·.isEmpty) with
  | none => common
  | some url => common.put "base_url" (.str url)

theorem Opens.messages {endpoint : Option Text} {key key' timeout : Json}
    (he : B.effect
      (.called "anthropic.init" (messageOpening key timeout (Model.trimEndpoint endpoint)))
      (.called "anthropic.init" (messageOpening key' timeout (Model.trimEndpoint endpoint)))) :
    B.Opens (Model.messages key endpoint timeout) (Model.messages key' endpoint timeout) :=
  (Agrees.openService he).bind fun _ _ _ => .pure ⟨rfl, fun _ =>
    (Steady.callService _ _ _).bind fun _ => ((Steady.hereditary B).check _).bind fun _ => .pure _⟩

/-- A provider opens the same backend on twin hosts. -/
theorem Opens.refl (p : Provider) : B.Opens (Model.backend p) (Model.backend p) := by
  unfold Model.backend
  refine Agrees.ite ?_ (Opens.chat (B.effect_refl _))
  cases p.key.filter (!·.isEmpty) with
  | none => exact Agrees.fail _
  | some key => exact Opens.messages (B.effect_refl _)

/-- The key of a client's provider plays no part in what it answers. -/
theorem runProgram_key {α : Type} (c : Model.Client) (key : Option Text) (program : Program α) :
    Model.runProgram { c with provider := { c.provider with key } } program =
      Model.runProgram c program := by
  induction program with
  | done a => rfl
  | stop e => rfl
  | ask call next ih =>
    rw [Model.runProgram, Model.runProgram]
    simp only [ih]
    rfl

/-! ### Runs -/

/-- Two providers with different keys at most, which open the same backend. -/
def Equips (B : Bond) (p p' : Provider) : Prop :=
  (∃ key, p' = { p with key }) ∧ B.Opens (Model.backend p) (Model.backend p')

/-- Two configurations that lead a run of an action in the same way: through the gate, to the same
model, and into the same work. -/
structure Leads (B : Bond) (a : Action) (config config' : Json) : Prop where
  gate : ∀ request : Gate.Request, B.Asks request.ask →
    B.Agrees Eq (Gate.pass config request) (Gate.pass config' request)
  provider : B.Agrees B.Equips (Job.check (Provider.ofConfig (.ofJson config)))
    (Job.check (Provider.ofConfig (.ofJson config')))
  work : ∀ text args, a.run ⟨text, args, config'⟩ = a.run ⟨text, args, config⟩

theorem Leads.refl (a : Action) (config : Json) : B.Leads a config config where
  gate _ ha := Steady.pass ha config
  provider := ((Steady.hereditary B).check _).mono fun p _ he => he ▸ ⟨⟨p.key, rfl⟩, .refl p⟩
  work _ _ := rfl

/-- Two runs that differ in the key and in the configuration, which lead them in the same way. -/
structure Alike (B : Bond) (r r' : Run) : Prop where
  rest : ∃ key config, r' = { r with provider := { r.provider with key }, config }
  leads : B.Leads r.action r.config r'.config
  opens : B.Opens (Model.backend r.provider) (Model.backend r'.provider)

end

variable {r r' : Run} {ask : Gate.Asker}

variable [Runtime]

theorem Agrees.enter (hr : B.Alike r r') (ha : B.Asks ask) (daemon : Bool) :
    B.Agrees (fun c c' => (∃ key, c' = { c with provider := { c.provider with key } }) ∧
        ∀ request, B.Steady (c.backend.complete request))
      (r.enter daemon ask) (r'.enter daemon ask) := by
  obtain ⟨⟨key, config, rfl⟩, hl, ho⟩ := hr
  have hclient : B.Agrees (fun c c' => (∃ key, c' = { c with provider := { c.provider with key } }) ∧
      ∀ request, B.Steady (c.backend.complete request))
      (Model.Client.make r.provider) (Model.Client.make { r.provider with key }) :=
    ho.bind fun b b' ⟨he, hb⟩ => .pure ⟨⟨key, by rw [he]; rfl⟩, hb⟩
  refine (hl.gate _ ha).bind fun _ _ _ => ?_
  dsimp only
  cases Run.present? r.action.progress with
  | none => exact hclient
  | some message => exact ((Steady.hereditary B).say trivial).before fun _ => hclient

theorem Agrees.work (hr : B.Alike r r') {c : Model.Client} (key : Option Text)
    (hc : ∀ request, B.Steady (c.backend.complete request)) :
    B.Agrees Eq (r.work c) (r'.work { c with provider := { c.provider with key } }) := by
  obtain ⟨⟨key', config, rfl⟩, hl, -⟩ := hr
  have hprogram : Model.runProgram { c with provider := { c.provider with key } }
      (r.action.run ⟨r.text, r.options.args, config⟩) =
        Model.runProgram c (r.action.run r.task) := by
    rw [runProgram_key, hl.work]
    rfl
  have hsteady : B.Steady (r.work c) := Run.work_inherits (Steady.hereditary B) Model.told_any hc
  unfold Run.work at hsteady ⊢
  rw [← hprogram] at hsteady ⊢
  exact hsteady

/-- The run from the gate to the delivery. -/
theorem Agrees.proceed (hr : B.Alike r r') (ha : B.Asks ask) (daemon : Bool) :
    B.Agrees Eq (r.proceed daemon ask) (r'.proceed daemon ask) := by
  have hdeliver : r'.deliver = r.deliver := by
    obtain ⟨⟨key, config, rfl⟩, -, -⟩ := hr
    rfl
  have hwork : B.Agrees Eq (r.enter daemon ask >>= r.work) (r'.enter daemon ask >>= r'.work) :=
    (Agrees.enter hr ha daemon).bind fun c c' ⟨⟨key, he⟩, hc⟩ => he ▸ Agrees.work hr key hc
  refine hwork.settle.bind fun e e' he => ?_
  obtain rfl := he.eq
  rw [hdeliver]
  exact Run.settleWork_inherits (Steady.hereditary B) (fun _ => trivial) (fun _ _ => trivial) e

/-- A run under way, to its end. -/
theorem Agrees.finish (hr : B.Alike r r') (ha : B.Asks ask) (ctx : Context) :
    B.Agrees Eq (r.finish ctx ask) (r'.finish ctx ask) := by
  have hconclude : r'.conclude = r.conclude := by
    obtain ⟨⟨key, config, rfl⟩, -, -⟩ := hr
    rfl
  have hconcluded (w : Run.Work) : B.Steady (r.conclude ctx.historyFile w) :=
    Run.conclude_inherits (Steady.hereditary B) _ w (Steady.append _) (fun _ => trivial)
      (fun _ _ => trivial) (fun _ _ => trivial) fun _ _ => trivial
  have hboth : B.Agrees Eq (r.proceed ctx.daemon ask >>= r.conclude ctx.historyFile)
      (r'.proceed ctx.daemon ask >>= r'.conclude ctx.historyFile) := by
    refine (Agrees.proceed hr ha ctx.daemon).bind fun w w' hw => ?_
    rw [hconclude, ← hw]
    exact hconcluded w
  exact hboth

/-- What a run asks the agent for is not hidden from it, and the texts are the same. -/
structure Acquires (B : Bond) (o : Run.Options) (ctx : Context) : Prop where
  config : ¬ B.hidden "/config"
  clipboard : o.input = none → ctx.input = none →
    ¬ B.hidden "/clipboard" ∧ ∀ j j', B.document "/clipboard" j j' → j = j'

theorem Agrees.acquire {o : Run.Options} {ctx : Context} (ho : B.Acquires o ctx) :
    B.Agrees (fun a a' => a.1 = a'.1 ∧ B.document "/config" a.2 a'.2) (Run.acquire o ctx)
      (Run.acquire o ctx) := by
  have hclipboard (hn : o.input = none) (hi : ctx.input = none) :
      B.Steady (Agent.clipboard ctx) := by
    obtain ⟨hv, he⟩ := ho.clipboard hn hi
    exact (request hv ctx.socket "GET" none).mono he
  have htext : B.Steady (Run.acquireText o ctx) :=
    Run.acquireText_inherits (Steady.hereditary B) fun hn =>
      Agent.inputText_inherits (Steady.hereditary B) (hclipboard hn)
  refine htext.settle.before fun text => ?_
  refine (settle (request ho.config ctx.socket "GET" none)).bind fun config config' hc => ?_
  cases text with
  | error e => exact throw e
  | ok text =>
    cases hc with
    | error e => exact throw e
    | ok hd => exact pure ⟨rfl, hd⟩

/-- A run of an action, led in the same way by all configurations that stand for each other. -/
theorem Agrees.start {a : Action} {o : Run.Options} {ctx : Context} (ho : B.Acquires o ctx)
    (hl : ∀ config config', B.document "/config" config config' → B.Leads a config config')
    (ha : B.Asks ask) : B.Steady (Run.start a o ctx ask) := by
  refine (attempt (acquire ho)).bind fun e e' he => ?_
  cases he with
  | error f => exact (Steady.emit _).bind fun _ => Steady.pure _
  | @ok acquired acquired' hq =>
    obtain ⟨text, config⟩ := acquired
    obtain ⟨text', config'⟩ := acquired'
    obtain ⟨rfl, hd⟩ := hq
    have hled := hl config config' hd
    refine hled.provider.bind fun p p' ⟨hkey, hopens⟩ => finish ⟨?_, hled, hopens⟩ ha ctx
    obtain ⟨key, rfl⟩ := hkey
    exact ⟨key, config', rfl⟩

/-- The same request for a run, on twin hosts. -/
theorem Steady.perform {registry : Registry} {name : Json} {o : Run.Options} {ctx : Context}
    (ho : B.Acquires o ctx) (ha : B.Asks ask)
    (hl : ∀ a, registry.lookUp name = .ok (some a) →
      ∀ config config', B.document "/config" config config' → B.Leads a config config') :
    B.Steady (Run.perform registry name o ctx ask) := by
  unfold Run.perform
  cases hf : registry.lookUp name with
  | error m => exact fail _
  | ok found =>
    simp only [Job.check, pure_bind]
    cases found with
    | none =>
      have hunknown : B.Steady (Run.reportUnknown registry name) :=
        Run.reportUnknown_inherits (hereditary B) (fun _ => trivial) (fun _ _ => trivial) _ _
      exact hunknown.bind fun _ => pure 1
    | some a => exact Agrees.start ho (hl a hf) ha

end ClipActions.Bond
