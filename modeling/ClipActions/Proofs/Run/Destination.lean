import ClipActions.Proofs.Run.Egress

/-!
Where a text goes that is sent without anybody's consent. What the gate takes for a provider on this
machine is opened at the very endpoint that it has looked at.
-/
namespace ClipActions

open Host (Adds)

open Job (Keeps)

namespace Provider

variable {config : Json} {p : Provider}

section

variable [Runtime]

/-- A base URL under which a provider on this machine is reached: the one of a local type, or the
endpoint itself if its host is this machine. -/
def ReachedAt (p : Provider) (url : Text) : Prop :=
  (p.type = "ollama" ∧ url = p.endpoint.getD localEndpoint) ∨
    (p.endpoint = some url ∧ ∃ host ∈ loopbackHosts, Url.host? url = some host)

end

private theorem present?_ne_nil {v : Data} {e : Text} (h : present? v = some e) : e ≠ [] := by
  unfold present? at h
  split at h
  · split at h
    · cases h
    · rename_i t hne
      cases h
      simpa using hne
  · cases h

/-- An endpoint that is configured is not empty. -/
theorem endpoint_ne_nil {block : Data} (hp : ofBlock block = .ok p) {e : Text}
    (he : p.endpoint = some e) : e ≠ [] := by
  have hblock : ∃ v, p.endpoint = present? v := by
    unfold ofBlock at hp
    cases block with
    | table entries =>
      cases hp
      exact ⟨_, rfl⟩
    | _ => cases hp
  obtain ⟨v, hv⟩ := hblock
  exact present?_ne_nil (hv.symm.trans he)

theorem ofConfig_endpoint_ne_nil {data : Data} (hp : ofConfig data = .ok p) {e : Text}
    (he : p.endpoint = some e) : e ≠ [] := by
  unfold ofConfig at hp
  cases hb : data.get "provider" with
  | error m =>
    rw [hb] at hp
    cases hp
  | ok block =>
    rw [hb] at hp
    exact endpoint_ne_nil hp he

variable [Runtime]

/-- What the gate does not take for the cloud is reached on this machine. -/
theorem reachedAt_resolveEndpoint {data : Data} (hp : ofConfig data = .ok p)
    (hl : isCloud p.type p.endpoint = false) : p.ReachedAt p.resolveEndpoint := by
  have hresolve : ∀ e, p.endpoint = some e → p.resolveEndpoint = e := by
    intro e he
    have hne := ofConfig_endpoint_ne_nil hp he
    simp [resolveEndpoint, he, hne]
  unfold isCloud at hl
  split at hl
  · cases hl
  · split at hl
    · rename_i hlocal
      have htype : p.type = "ollama" := by simpa [localTypes] using hlocal
      refine .inl ⟨htype, ?_⟩
      cases he : p.endpoint with
      | none =>
        rw [resolveEndpoint, he, htype]
        rfl
      | some e => exact hresolve e he
    · simp only [Bool.not_eq_false', Option.any_eq_true, List.contains_iff_mem] at hl
      obtain ⟨host, hhost, hmem⟩ := hl
      obtain ⟨e, he, hhost⟩ := Option.bind_eq_some_iff.1 hhost
      rw [hresolve e he]
      exact .inr ⟨he, host, hmem, hhost⟩

/-- A provider that is not in the cloud is opened for chat completions, at its endpoint. -/
theorem backend_of_local (hl : isCloud p.type p.endpoint = false) :
    ∃ key : Text, key ≠ [] ∧
      Model.backend p = Model.chat (some p.resolveEndpoint) (.str key) := by
  have htype : p.type ≠ "anthropic" := by
    intro h
    rw [h] at hl
    simp [isCloud, cloudTypes] at hl
  refine ⟨(p.key.filter (!·.isEmpty)).getD Model.placeholderKey, ?_, ?_⟩
  · cases hk : p.key.filter (!·.isEmpty) with
    | none => decide
    | some key =>
      have := (Option.filter_eq_some_iff.1 hk).2
      simpa using this
  · rw [Model.backend, if_neg htype]

end Provider

/-- An effect that calls no model service but for the completion of a chat. -/
def Effect.Completes : Effect → Prop
  | .called operation _ => operation = "openai.create"
  | _ => True

theorem Effect.Logs.completes {name : Text} {e : Effect} (h : e.Logs name) : e.Completes := by
  cases e with
  | logged target level record => trivial
  | _ => cases h

namespace Run

variable {registry : Registry} {name : Json} {o : Options} {ctx : Context} {ask : Gate.Asker}
  {host h k : Host} {r : Run}

section

variable [Runtime]

/-- Where nobody agrees, only what is exempt passes the gate. -/
theorem isCloud_of_pass {request : Gate.Request} {config : Json} {p : Provider}
    (hsafe : ∃ v, Gate.safeMode config = .ok v ∧ v.truthy = true)
    (hp : Provider.ofConfig (.ofJson config) = .ok p) (hyes : request.yes = false)
    (hno : request.daemon = false → ((request.ask (Gate.question p)).result h).1 ≠ .ok true)
    (hg : (Gate.pass config request).result h = (.ok (), k)) :
    Provider.isCloud p.type p.endpoint = false := by
  cases hcloud : Provider.isCloud p.type p.endpoint with
  | false => rfl
  | true =>
    rw [Gate.result_pass_judged ⟨hsafe, hp, hcloud⟩] at hg
    obtain ⟨yes, daemon, ask⟩ := request
    cases hyes
    cases daemon with
    | true =>
      obtain ⟨m, -, hm⟩ := Gate.judge_daemon p false h
      rw [hm ask] at hg
      cases hg
    | false =>
      obtain ⟨m, -, hm⟩ := Gate.judge_ask p ask h
      have hanswer := hno rfl
      rw [hm] at hg
      generalize ((ask (Gate.question p)).result h).1 = answer at hg hanswer
      rcases answer with e | agreed
      · cases hg
      · cases agreed
        · cases hg
        · exact absurd rfl hanswer

/-- A service is opened behind the message of the action, unless the standard output refuses that. -/
theorem host_prepare {url : Option Text} {key : Json}
    (hb : Model.backend r.provider = Model.chat url key) (k : Host) :
    (∃ e, r.prepare.result k = (.error e, k)) ∨
      ∃ es, (∀ e ∈ es, Effect.Stays e) ∧ (r.prepare.result k).2 = { k with
        trace := k.trace ++ es ++
          [.called "openai.init" (Model.chatOpening url key (.float Model.usualTimeout))] } := by
  unfold prepare
  split
  · rename_i message _
    dsimp only
    cases hf : Runtime.outputFault? (message ++ "\n" ++ "\n") with
    | some e => exact .inl ⟨_, Job.result_bind_error (Job.result_say_refused hf k) _⟩
    | none =>
      refine .inr ⟨[.printed (message ++ "\n" ++ "\n")], by simp [Effect.Stays, Effect.Leaves], ?_⟩
      rw [Job.result_bind_ok (Job.result_say hf k), Model.host_make, hb, Model.host_chat]
  · refine .inr ⟨[], by simp, ?_⟩
    dsimp only
    rw [Model.host_make, hb, Model.host_chat, List.append_nil]

/-- Behind the gate a service with chat completions is opened at most once, and then only asked. -/
theorem afterGate_opens {url : Option Text} {key : Json}
    (hb : Model.backend r.provider = Model.chat url key) (k : Host) :
    (r.afterGate.result k).2.trace = k.trace ∨
      ∃ before after, (∀ e ∈ before, Effect.Stays e) ∧ (∀ e ∈ after, Effect.Completes e) ∧
        (r.afterGate.result k).2.trace = k.trace ++ before ++
          .called "openai.init" (Model.chatOpening url key (.float Model.usualTimeout)) :: after := by
  rcases host_prepare hb k with ⟨e, he⟩ | ⟨before, hbefore, hprepare⟩
  · refine .inl ?_
    unfold afterGate
    rw [Job.result_bind_ok (Job.result_settle _ k), Job.result_bind_error he]
    rfl
  have f := Host.frame_adds Effect.Completes
  have told : Model.Told Effect.Completes := ⟨fun _ hx => hx.completes,
    fun _ hx => hx.logs.completes, fun _ hx => hx.completes, fun _ hx => hx.logs.completes⟩
  have hsettle : ∀ result, Keeps (Adds Effect.Completes) (r.settleWork result) :=
    settleWork_inherits f.hereditary (fun _ => trivial) (fun _ _ => trivial)
  have hwork : Adds Effect.Completes (r.prepare.result k).2
      ((r.prepare >>= r.work).result k).2 := by
    rw [Job.result_bind]
    cases hc : r.prepare.result k with
    | mk made m =>
      cases made with
      | error e => exact f.refl m
      | ok c =>
        obtain ⟨m', hm⟩ := prepare_backend hc
        rw [hb] at hm
        exact work_inherits f.hereditary told
          ((Model.chat_complete hm).2.2 _ _ f.hereditary told fun _ => rfl) m
  obtain ⟨after, hafter, hcompletes⟩ := hwork.trans (hsettle _ _)
  refine .inr ⟨before, after, hbefore, hcompletes, ?_⟩
  unfold afterGate
  rw [Job.result_bind_ok (Job.result_settle _ k), hafter, hprepare]
  simp

/-- A run that nobody has agreed to opens a service at most once, on this machine. -/
theorem unagreed_opens (u : UnderWay registry name o ctx host r h)
    (hask : ∀ m, Keeps (Adds Effect.Stays) (ask m)) (hyes : o.yes = false)
    (hsafe : ∃ v, Gate.safeMode r.config = .ok v ∧ v.truthy = true)
    (hno : ctx.daemon = false → ((ask (Gate.question r.provider)).result h).1 ≠ .ok true) :
    ∃ es, ((perform registry name o ctx ask).result host).2.trace = host.trace ++ es ∧
      ((∀ e ∈ es, Effect.Stays e) ∨ ∃ url key before after, r.provider.ReachedAt url ∧
        es = before ++ .called "openai.init"
          (Model.chatOpening (some url) key (.float Model.usualTimeout)) :: after ∧
        (∀ e ∈ before, Effect.Stays e) ∧ ∀ e ∈ after, Effect.Completes e) := by
  cases hg : (Gate.pass r.config (r.request ctx.daemon ask)).result h with
  | mk passed k =>
    cases passed with
    | error e =>
      obtain ⟨es, hes, hstays⟩ := (held_stays u hask hg).1
      exact ⟨es, hes, .inl hstays⟩
    | ok _ =>
      have hyes' : (r.request ctx.daemon ask).yes = false := by
        rw [request, u.options]
        exact hyes
      have hlocal : Provider.isCloud r.provider.type r.provider.endpoint = false :=
        isCloud_of_pass hsafe u.provider hyes' hno hg
      obtain ⟨key, -, hb⟩ := Provider.backend_of_local hlocal
      obtain ⟨⟨es, hes, hstays⟩, -⟩ := passed_stays u hask hg
      have hperform : ((perform registry name o ctx ask).result host).2 =
          ((r.afterGate >>= r.conclude ctx.historyFile).result k).2 := by
        rw [result_perform u, result_finish, Job.result_bind, result_proceed, hg, Job.result_bind]
      rcases afterGate_opens hb k with hnone | ⟨before, after, hbefore, hafter, htrace⟩
      · obtain ⟨rest, hconcluded, hrest⟩ : Adds Effect.Stays (r.afterGate.result k).2
            ((r.afterGate >>= r.conclude ctx.historyFile).result k).2 := by
          rw [Job.result_bind]
          rcases r.afterGate.result k with ⟨e | w, m⟩
          · exact .refl m
          · exact conclude_adds _ w (fun _ => id) (fun _ _ => id) (fun _ hx => hx.logs.stays)
              (fun _ hx => hx.logs.stays) m
        refine ⟨es ++ rest, ?_, .inl fun e he => (List.mem_append.1 he).elim (hstays e) (hrest e)⟩
        rw [hperform, hconcluded, hnone, hes, List.append_assoc]
      have hrest : Adds Effect.Completes (r.afterGate.result k).2
          ((r.afterGate >>= r.conclude ctx.historyFile).result k).2 := by
        rw [Job.result_bind]
        rcases r.afterGate.result k with ⟨e | w, m⟩
        · exact .refl m
        · exact conclude_adds _ w (fun _ => trivial) (fun _ _ => trivial)
            (fun _ hx => hx.logs.completes) (fun _ hx => hx.logs.completes) m
      obtain ⟨rest, hconcluded, hcompletes⟩ := hrest
      refine ⟨es ++ before ++ .called "openai.init" (Model.chatOpening
        (some r.provider.resolveEndpoint) (.str key) (.float Model.usualTimeout)) ::
          (after ++ rest), ?_, .inr ⟨r.provider.resolveEndpoint, .str key, es ++ before,
          after ++ rest, Provider.reachedAt_resolveEndpoint u.provider hlocal, rfl, ?_, ?_⟩⟩
      · rw [hperform, hconcluded, htrace, hes]
        simp
      · intro e he
        exact (List.mem_append.1 he).elim (hstays e) (hbefore e)
      · intro e he
        exact (List.mem_append.1 he).elim (hafter e) (hcompletes e)

/-- The gate and the client agree on where a text goes. What the gate takes for a provider on this
machine is opened for chat completions, at the endpoint of a local type or at the one that the gate
has looked at; so in safe mode a run that nobody has agreed to opens at most one service, at such a
place, and asks no other. -/
theorem gate_and_client_agree :
    (∀ config p, Provider.ofConfig (.ofJson config) = .ok p →
      Provider.isCloud p.type p.endpoint = false →
      ∃ url key, p.ReachedAt url ∧ key ≠ [] ∧
        Model.backend p = Model.chat (some url) (.str key) ∧
        ∀ h : Host, h.openHalt? "openai.init"
            (Model.chatOpening (some url) (.str key) (.float Model.usualTimeout)) = none →
          ∃ b k, (Model.backend p).result h = (.ok b, k) ∧ b.kind = Model.chatKind ∧
            b.baseUrl = some url) ∧
    ∀ registry name o ctx (ask : Gate.Asker) host,
      (∀ m, Keeps (Adds Effect.Stays) (ask m)) → o.yes = false →
      (∀ r h, UnderWay registry name o ctx host r h →
        (∃ v, Gate.safeMode r.config = .ok v ∧ v.truthy = true) ∧
          (ctx.daemon = false → ((ask (Gate.question r.provider)).result h).1 ≠ .ok true)) →
      ∃ es, ((perform registry name o ctx ask).result host).2.trace = host.trace ++ es ∧
        ((∀ e ∈ es, Effect.Stays e) ∨ ∃ r h url key before after,
          UnderWay registry name o ctx host r h ∧ r.provider.ReachedAt url ∧
          es = before ++ .called "openai.init"
            (Model.chatOpening (some url) key (.float Model.usualTimeout)) :: after ∧
          (∀ e ∈ before, Effect.Stays e) ∧ ∀ e ∈ after, Effect.Completes e) := by
  refine ⟨fun config p hp hl => ?_, fun registry name o ctx ask host hask hyes hrun => ?_⟩
  · obtain ⟨key, hkey, hb⟩ := Provider.backend_of_local hl
    refine ⟨p.resolveEndpoint, key, Provider.reachedAt_resolveEndpoint hp hl, hkey, hb, ?_⟩
    intro h hopen
    rw [hb]
    exact Model.chat_opens hopen
  · by_cases hu : ∃ r h, UnderWay registry name o ctx host r h
    · obtain ⟨r, h, u⟩ := hu
      obtain ⟨es, hes, hstays | ⟨url, key, before, after, hlocal, heq, hbefore, hafter⟩⟩ :=
        unagreed_opens u hask hyes (hrun r h u).1 (hrun r h u).2
      · exact ⟨es, hes, .inl hstays⟩
      · exact ⟨es, hes, .inr ⟨r, h, url, key, before, after, u, hlocal, heq, hbefore, hafter⟩⟩
    · have hadds : Adds Effect.Stays host ((perform registry name o ctx ask).result host).2 :=
        (unstarted_stays hu).1
      obtain ⟨es, hes, hstays⟩ := hadds
      exact ⟨es, hes, .inl hstays⟩

end

/-- A host with an agent whose configuration has safe mode on and a provider on this machine. -/
def localHost : Host :=
  { smallHost none with
    agent := .serving [("/config", [.reply 200 ((Utf8.encode?
      ("\x7b\"settings\":\x7b\"safe_mode\":true\x7d," ++
        "\"provider\":\x7b\"type\":\"ollama\"\x7d\x7d")).getD [])])] }

/-- Safe mode is on there, and the provider is that of this machine at its usual place. -/
theorem localHost_underWay {h : Host} {r : Run}
    (u : UnderWay ⟨[echo]⟩ (.str "e") {} smallContext localHost r h) :
    (∃ v, Gate.safeMode r.config = .ok v ∧ v.truthy = true) ∧
      r.provider.type = "ollama" ∧ r.provider.endpoint = none := by
  have hknown : (match ((acquire {} smallContext).result localHost).1 with
      | .ok (_, config) => (Gate.safeMode config).toOption.any (·.truthy) &&
          (Provider.ofConfig (.ofJson config)).toOption.any fun p =>
            p.type = Text.ofString "ollama" && p.endpoint.isNone
      | .error _ => false) = true := by
    decide +kernel
  rw [u.acquired] at hknown
  dsimp only at hknown
  rw [u.provider, Bool.and_eq_true] at hknown
  obtain ⟨hon, hprovider⟩ := hknown
  obtain ⟨htype, hendpoint⟩ : r.provider.type = "ollama" ∧ r.provider.endpoint = none := by
    simpa [Except.toOption] using hprovider
  refine ⟨?_, htype, hendpoint⟩
  cases hv : Gate.safeMode r.config with
  | error m =>
    rw [hv] at hon
    cases hon
  | ok v =>
    rw [hv] at hon
    exact ⟨v, rfl, hon⟩

/-- Where nobody agrees, the service of this machine is opened, and no other. -/
theorem gate_and_client_agree_local :
    (∃ b k, (Model.backend { type := "ollama", model := [] }).result (smallHost none) = (.ok b, k) ∧
      b.baseUrl = some Provider.localEndpoint) ∧
    ∃ key before after,
      ((perform ⟨[echo]⟩ (.str "e") {} smallContext fun _ => pure false).result localHost).2.trace =
        before ++ .called "openai.init" (Model.chatOpening (some Provider.localEndpoint) key
          (.float Model.usualTimeout)) :: after ∧
      (∀ e ∈ before, Effect.Stays e) ∧ ∀ e ∈ after, Effect.Completes e := by
  obtain ⟨hopens, hruns⟩ := gate_and_client_agree
  constructor
  · obtain ⟨url, key, hreached, -, -, hb⟩ := hopens
      (.obj [("provider", .obj [("type", .str "ollama")])]) { type := "ollama", model := [] }
      rfl rfl
    obtain ⟨b, k, hresult, -, hurl⟩ := hb (smallHost none) rfl
    refine ⟨b, k, hresult, ?_⟩
    obtain ⟨-, rfl⟩ | ⟨hnone, -⟩ := hreached
    · exact hurl
    · cases hnone
  obtain ⟨es, hes, hstays | ⟨r, h, url, key, before, after, u, hreached, rfl, hbefore, hafter⟩⟩ :=
    hruns ⟨[echo]⟩ (.str "e") {} smallContext (fun _ => pure false) localHost
      (fun _ => (Host.frame_adds _).pure false) rfl
      fun r h u => ⟨(localHost_underWay u).1, fun _ hagreed => by cases hagreed⟩
  · have hcalled : ((perform ⟨[echo]⟩ (.str "e") {} smallContext
        fun _ => pure false).result localHost).2.trace.any (fun
          | .called .. => true
          | _ => false) = true := by
      decide +kernel
    obtain ⟨e, he, hc⟩ := List.any_eq_true.1 (hes ▸ hcalled)
    cases e with
    | called operation arguments => exact absurd trivial (hstays _ he)
    | _ => cases hc
  · obtain ⟨-, -, hendpoint⟩ := localHost_underWay u
    refine ⟨key, before, after, ?_, hbefore, hafter⟩
    obtain ⟨-, rfl⟩ | ⟨hsome, -⟩ := hreached
    · rw [hes, hendpoint]
      rfl
    · rw [hendpoint] at hsome
      cases hsome

end Run
end ClipActions
