import ClipActions.Proofs.Command.Reports
import ClipActions.Proofs.Json.Entries
import ClipActions.Proofs.Run.Twins

/-!
The key of a provider stays secret. Of two runs whose configurations differ in the key alone, nobody
but the model service that is opened can tell which is which.
-/
namespace ClipActions

def keyed (fields block : Json.Fields) (key : Text) : Json :=
  .obj (fields.put "provider" (.obj (block.put "api_key" (.str key))))

/-- Two configurations that differ in the key at most. -/
inductive Json.Rekeyed (key key' : Text) : Json → Json → Prop where
  | same (j : Json) : Rekeyed key key' j j
  | keyed (fields block : Fields) :
    Rekeyed key key' (keyed fields block key) (keyed fields block key')

/-- The same effect, or two openings of a model service that differ in the key alone. -/
inductive Effect.Rekeyed (key key' : Text) : Effect → Effect → Prop where
  | same (e : Effect) : Rekeyed key key' e e
  | opened {operation : Text} (ho : operation ∈ [Text.ofString "openai.init", "anthropic.init"])
    (arguments : Json.Fields) :
    Rekeyed key key' (.called operation (arguments.put "api_key" (.str key)))
      (.called operation (arguments.put "api_key" (.str key')))

/-- The agents answer with configurations that differ in the key at most, and so do the openings. -/
def Bond.keys (key key' : Text) : Bond where
  effect := Effect.Rekeyed key key'
  document path := if path = "/config" then Json.Rekeyed key key' else Eq
  effect_refl := .same
  document_refl path j := by
    split
    · exact .same j
    · rfl

variable {key key' : Text} {fields block : Json.Fields} {name : Text}

/-! ### The configuration -/

theorem get_keyed (hn : name ≠ "provider") (absent : Json) :
    (keyed fields block key).get name absent = (Json.obj fields).get name absent := by
  rw [keyed, Json.get, Json.get, Json.Fields.find?_put, if_neg hn]

theorem get_provider_keyed : (keyed fields block key).get "provider" =
    .ok (.obj (block.put "api_key" (.str key))) := by
  rw [keyed, Json.get, Json.Fields.find?_put, if_pos rfl]
  rfl

theorem truthy_put (fields : Json.Fields) (name : Text) (v : Json) :
    (Json.obj (fields.put name v)).truthy = true := by
  cases fields with
  | nil => rfl
  | cons field rest =>
    rw [Json.Fields.put]
    split <;> rfl

/-- What a provider is but for its key. -/
def unkeyed (block : Json.Fields) : Provider :=
  let field (name : Text) : Data := ((block.find? name).map Value.ofJson).getD .null
  { type := Provider.textOf (field "type"), model := Provider.textOf (field "model")
    endpoint := Provider.present? (field "endpoint") }

theorem ofConfig_keyed (hk : key ≠ []) :
    Provider.ofConfig (.ofJson (keyed fields block key)) =
      .ok { unkeyed block with key := some key } := by
  have hkey : Provider.present? (Value.ofJson (.str key)) = some key := by
    cases key with
    | nil => exact absurd rfl hk
    | cons s t => rfl
  have hfield (name : Text) : (Value.ofJson (.obj (block.put "api_key" (.str key))) : Data).get name =
      .ok (((if name = "api_key" then some (.str key) else block.find? name).map
        Value.ofJson).getD .null) := by
    rw [Value.ofJson, Value.get, Value.atName?_ofJsonFields, Json.Fields.find?_put]
  have hprovider : (Value.ofJson (keyed fields block key) : Data).get "provider" =
      .ok (Value.ofJson (.obj (block.put "api_key" (.str key)))) := by
    rw [keyed, Value.ofJson, Value.get, Value.atName?_ofJsonFields, Json.Fields.find?_put,
      if_pos rfl]
    rfl
  have htruthy : (Value.ofJson (.obj (block.put "api_key" (.str key))) : Data).truthy = true := by
    rw [Value.truthy_ofJson, truthy_put]
  rw [Provider.ofConfig, hprovider]
  simp only [bind, Except.bind, Value.orEmpty, htruthy, if_true, Provider.ofBlock,
    hfield, pure, Except.pure]
  -- The other three fields are read past the key.
  have hnames : Text.ofString "type" ≠ "api_key" ∧ Text.ofString "model" ≠ "api_key" ∧
      Text.ofString "endpoint" ≠ "api_key" := by decide
  rw [if_neg hnames.1, if_neg hnames.2.1, if_neg hnames.2.2]
  exact congrArg Except.ok (Provider.mk.injEq .. ▸ ⟨rfl, rfl, rfl, hkey⟩)

section

variable [Runtime]

/-! ### The gate, the model and the work -/

theorem pass_keyed (hk : key ≠ []) (hk' : key' ≠ []) (request : Gate.Request) :
    Gate.pass (keyed fields block key') request = Gate.pass (keyed fields block key) request := by
  have hsettings : Text.ofString "settings" ≠ "provider" := by decide
  unfold Gate.pass
  rw [ofConfig_keyed hk, ofConfig_keyed hk', get_keyed hsettings, get_keyed hsettings]
  rfl

end

theorem present?_key (hk : key ≠ []) : (some key).filter (!·.isEmpty) = some key := by
  cases key with
  | nil => exact absurd rfl hk
  | cons s t => rfl

section

variable [Runtime]

open Bond in
/-- The openings of a model service differ in the key alone, and so the backend is the same. -/
theorem opens_keyed (hk : key ≠ []) (hk' : key' ≠ []) (p : Provider) :
    (Bond.keys key key').Opens (Model.backend { p with key := some key })
      (Model.backend { p with key := some key' }) := by
  unfold Model.backend
  refine Agrees.ite ?_ ?_
  · simp only [present?_key hk, present?_key hk']
    refine Opens.messages ?_
    unfold messageOpening
    cases (Model.trimEndpoint p.endpoint).filter (!·.isEmpty) with
    | none =>
      exact .opened (by simp) [("api_key", .null), ("timeout", _), ("max_retries", .int 0)]
    | some url =>
      exact .opened (by simp) [("api_key", .null), ("timeout", _), ("max_retries", .int 0),
        ("base_url", .str url)]
  · simp only [present?_key hk, present?_key hk', Option.getD_some]
    exact Opens.chat (.opened (by simp) [("base_url", _), ("api_key", .null), ("timeout", _),
      ("max_retries", .int 0)])

end

/-- The built-in actions do not look at the configuration. -/
theorem run_builtin {a : Action} (ha : a ∈ Action.builtins) (text : Json) (args : List Json)
    (config config' : Json) : a.run ⟨text, args, config'⟩ = a.run ⟨text, args, config⟩ := by
  simp only [Action.builtins, List.mem_cons, List.not_mem_nil, or_false] at ha
  rcases ha with rfl | rfl | rfl | rfl | rfl | rfl | rfl <;> rfl

section

variable [Runtime]

theorem leads_keyed (hk : key ≠ []) (hk' : key' ≠ []) {a : Action} (ha : a ∈ Action.builtins)
    {config config' : Json} (hc : Json.Rekeyed key key' config config') :
    (Bond.keys key key').Leads a config config' := by
  cases hc with
  | same => exact .refl a config
  | keyed fields block =>
    refine ⟨fun request hr => ?_, ?_, fun text args => run_builtin ha text args _ _⟩
    · rw [pass_keyed hk hk']
      exact Bond.Steady.pass hr _
    · rw [ofConfig_keyed hk, ofConfig_keyed hk']
      exact .pure ⟨⟨some key', rfl⟩, opens_keyed hk hk' _⟩

/-! ### The report on the configuration -/

theorem sayField_key (hn : name ≠ "api_key") (label unit : Text) :
    Report.sayField label (.obj (block.put "api_key" (.str key))) name unit =
      Report.sayField label (.obj block) name unit := by
  rw [Report.sayField, Report.sayField, Json.get, Json.get, Json.Fields.find?_put, if_neg hn]

/-- The report tells the type, the model and the endpoint of the provider. -/
theorem printConfig_keyed (fields block : Json.Fields) (key key' : Text) :
    Report.printConfig (keyed fields block key') =
      Report.printConfig (keyed fields block key) := by
  have hprovider (key : Text) : Report.block (keyed fields block key) "provider" =
      pure (.obj (block.put "api_key" (.str key))) := by
    rw [Report.block, get_provider_keyed]
    simp only [Job.check, pure_bind, Json.orEmpty, Json.orElse, truthy_put, if_true]
  have hblock (key name : Text) (hn : name ≠ "provider") :
      Report.block (keyed fields block key) name = Report.block (.obj fields) name := by
    rw [Report.block, Report.block, get_keyed hn]
  have htype : Text.ofString "type" ≠ "api_key" := by decide
  have hmodel : Text.ofString "model" ≠ "api_key" := by decide
  have hendpoint : Text.ofString "endpoint" ≠ "api_key" := by decide
  unfold Report.printConfig
  simp only [hprovider, hblock _ "settings" (by decide), hblock _ "actions" (by decide), pure_bind,
    sayField_key htype, sayField_key hmodel, sayField_key hendpoint]

theorem printConfig_steady (B : Bond) (config : Json) : B.Steady (Report.printConfig config) :=
  (Report.printConfig_prints config).inherits (Bond.Steady.hereditary B) fun _ => trivial

theorem config_steady (ctx : Context) : (Bond.keys key key').Steady (Report.config ctx) := by
  have hshown : ¬ (Bond.keys key key').hidden "/config" := fun h => h
  have hasked : (Bond.keys key key').Agrees (Json.Rekeyed key key') (Agent.config ctx)
      (Agent.config ctx) := Bond.Agrees.request hshown ctx.socket "GET" none
  refine hasked.attempt.bind fun reply reply' hr => ?_
  cases hr with
  | error f =>
    have htold : (Bond.keys key key').Steady (do
        Run.reportError (Secret.redact f.message)
        return 1 : Job Int) := (Bond.Steady.emit _).bind fun _ => .pure _
    dsimp only
    split
    · exact .fail f
    · exact htold
  | ok hd =>
    cases hd with
    | same => exact (printConfig_steady _ _).bind fun _ => .pure _
    | keyed fields block =>
      dsimp only
      rw [printConfig_keyed fields block key key']
      exact (printConfig_steady _ _).bind fun _ => .pure _

end

theorem shown_key (hk : key ≠ []) (hk' : key' ≠ []) (p : Provider) :
    { p with key := some key' }.shown = { p with key := some key }.shown := by
  have hmasked : ∀ {key : Text}, key ≠ [] → (some key).all (·.isEmpty) = false := by
    intro key hk
    cases key with
    | nil => exact absurd rfl hk
    | cons s t => rfl
  simp only [Provider.shown, hmasked hk, hmasked hk']

namespace Run

section

variable [Runtime]

/-- With two keys, everything that a run does is the same but for the key that a model service is
opened with: its end, the disk with the history and the log, and what has been printed, logged,
asked for, called and copied, effect by effect. So is what the report on the configuration does, and
how the two providers are shown. -/
theorem key_stays_secret (hk : key ≠ []) (hk' : key' ≠ []) {h h' : Host}
    (ht : (Bond.keys key key').Twins h h') :
    (∀ (registry : Registry) (name : Json) (o : Options) (ctx : Context) (ask : Gate.Asker),
      (∀ a, registry.lookUp name = .ok (some a) → a ∈ Action.builtins) →
      (Bond.keys key key').Asks ask →
      ((perform registry name o ctx ask).result h').1 =
        ((perform registry name o ctx ask).result h).1 ∧
      (Bond.keys key key').Twins ((perform registry name o ctx ask).result h).2
        ((perform registry name o ctx ask).result h').2) ∧
    (∀ ctx : Context, ((Report.config ctx).result h').1 = ((Report.config ctx).result h).1 ∧
      (Bond.keys key key').Twins ((Report.config ctx).result h).2 ((Report.config ctx).result h').2) ∧
    ∀ fields block, Provider.shown <$> Provider.ofConfig (.ofJson (keyed fields block key')) =
      Provider.shown <$> Provider.ofConfig (.ofJson (keyed fields block key)) := by
  refine ⟨fun registry name o ctx ask hb ha => ?_, fun ctx => ?_, fun fields block => ?_⟩
  · have hacquires : (Bond.keys key key').Acquires o ctx :=
      ⟨fun h => h, fun _ _ => ⟨fun h => h, fun _ _ he => he⟩⟩
    obtain ⟨hends, htwins⟩ := Bond.Steady.perform hacquires ha (fun a hf config config' hc =>
      leads_keyed hk hk' (hb a hf) hc) h h' ht
    exact ⟨hends.eq.symm, htwins⟩
  · obtain ⟨hends, htwins⟩ := config_steady ctx h h' ht
    exact ⟨hends.eq.symm, htwins⟩
  · rw [ofConfig_keyed hk, ofConfig_keyed hk']
    exact congrArg Except.ok (shown_key hk hk' _)

end

/-- The body of a reply with a configuration that holds a key and nothing else. -/
def keyBody (key : Text) : Bytes := (Utf8.encode? (keyed [] [] key).write).getD []

def isKeyed (key : Text) : Except Failure (Option Json) → Bool
  | .ok (some (.obj [(provider, .obj [(field, .str t)])])) =>
    provider = "provider" && field = "api_key" && t = key
  | _ => false

theorem eq_of_isKeyed {key : Text} {read : Except Failure (Option Json)}
    (h : isKeyed key read = true) : read = .ok (some (keyed [] [] key)) := by
  unfold isKeyed at h
  split at h
  · simp only [Bool.and_eq_true, decide_eq_true_eq] at h
    obtain ⟨⟨rfl, rfl⟩, rfl⟩ := h
    rfl
  · cases h

def keyHost (key : Text) : Host where
  now := ⟨0⟩
  agent := .serving [("/config", [.reply 200 (keyBody key)])]
  target := .nowhere

theorem keyHost_twins : (Bond.keys "a" "b").Twins (keyHost "a") (keyHost "b") where
  rest := rfl
  agent := by
    have ha : Agent.documentIn (keyBody "a") = .ok (some (keyed [] [] "a")) :=
      eq_of_isKeyed (by decide +kernel)
    have hb : Agent.documentIn (keyBody "b") = .ok (some (keyed [] [] "b")) :=
      eq_of_isKeyed (by decide +kernel)
    refine Agent.Peer.Alike.serving fun path _ => ?_
    by_cases hp : path = "/config"
    · subst hp
      exact .some (.cons (.documents rfl ha hb (.keyed [] [])) .nil)
    · rw [List.lookup_cons, List.lookup_cons, beq_false_of_ne hp]
      exact .none
  opening _ _ _ _ := rfl
  trace := .nil

/-- Two keys, and a summary of the same text. -/
theorem key_stays_secret_summary :
    ((perform ⟨Action.builtins⟩ (.str "sum") {} smallContext).result (keyHost "b")).1 =
      ((perform ⟨Action.builtins⟩ (.str "sum") {} smallContext).result (keyHost "a")).1 ∧
    (Bond.keys "a" "b").Twins
      ((perform ⟨Action.builtins⟩ (.str "sum") {} smallContext).result (keyHost "a")).2
      ((perform ⟨Action.builtins⟩ (.str "sum") {} smallContext).result (keyHost "b")).2 := by
  have hkeys : Text.ofString "a" ≠ [] ∧ Text.ofString "b" ≠ [] := by decide
  have hbuiltin : ∀ a, Registry.lookUp ⟨Action.builtins⟩ (.str "sum") = .ok (some a) →
      a ∈ Action.builtins := by
    intro a ha
    have hfound : Registry.owner? Action.builtins "sum" = some a := by
      injection ha
    exact List.mem_of_find?_eq_some hfound
  exact (key_stays_secret hkeys.1 hkeys.2 keyHost_twins).1 _ _ _ _ _ hbuiltin
    Bond.Steady.askTerminal

end Run
end ClipActions
