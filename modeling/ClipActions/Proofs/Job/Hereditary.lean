import ClipActions.Agent.Client
import ClipActions.Model.Client
import ClipActions.Proofs.Job.Result
import ClipActions.Proofs.Log.EventName

/-!
Hereditary properties of jobs: a job has one if its parts have it. What a run does at its stages is
made of few parts, so a property of these is one of every stage.
-/
namespace ClipActions

/-- The name of the event that an effect logs, if it logs one. -/
def Effect.event? : Effect → Option Text
  | .logged _ _ record => some (Log.Event.nameIn record)
  | _ => none

/-- An effect logs an event of a name. -/
def Effect.Logs (name : Text) (e : Effect) : Prop := e.event? = some name

/-- An effect logs a plain event of a name, and what the event says of an error has a property. -/
def Effect.Tells (name : Text) (Q : Data → Prop) (x : Effect) : Prop :=
  ∃ (target : Log.Target) (now : Instant) (e : Log.Event),
    x = .logged target e.level (e.record now) ∧ e.Plain ∧ e.name = name ∧
      ∀ f ∈ e.fields, f.1 = "error" ∨ f.1 = "message" → Q f.2

/-- An effect logs a plain event of a name that says nothing of an error. -/
def Effect.Notes (name : Text) : Effect → Prop := Effect.Tells name fun _ => False

theorem Effect.Tells.logs {name : Text} {Q : Data → Prop} {x : Effect} (h : x.Tells name Q) :
    x.Logs name := by
  obtain ⟨target, now, e, rfl, he, rfl, -⟩ := h
  exact congrArg some (Log.Event.nameIn_record he now)

theorem Effect.Tells.mono {name : Text} {Q Q' : Data → Prop} {x : Effect}
    (h : x.Tells name Q) (hs : ∀ v, Q v → Q' v) : x.Tells name Q' := by
  obtain ⟨target, now, e, hx, he, hn, hf⟩ := h
  exact ⟨target, now, e, hx, he, hn, fun f hm hf' => hs _ (hf f hm hf')⟩

/-- What a warning says of an error: a text without its secrets. -/
def Redacted (v : Data) : Prop := ∃ t, v = .str (Secret.redact t)

/-- Whether an event says nothing of an error shows in the names of its fields. -/
theorem Log.Event.silent_of_names {fields : List (Text × Data)}
    (h : decide (∀ n ∈ fields.map Prod.fst, n ≠ "error" ∧ n ≠ "message") = true) :
    ∀ f ∈ fields, f.1 = "error" ∨ f.1 = "message" → False := by
  intro f hf hn
  obtain ⟨herror, hmessage⟩ := of_decide_eq_true h f.1 (List.mem_map_of_mem hf)
  exact hn.elim herror hmessage

section

variable [Runtime]

/-- A property of jobs that jobs hand on to the jobs that are made of them, as long as what these do
to their surroundings has a property of its own. -/
structure Job.Hereditary (P : Effect → Prop) (S : ∀ {α : Type}, Job α → Prop) : Prop where
  pure : ∀ {α : Type} (a : α), S (Pure.pure a : Job α)
  throw : ∀ {α : Type} (e : Halt), S (MonadExcept.throw e : Job α)
  /-- What comes second counts only where something comes of the first. -/
  bind_of_ok : ∀ {α β : Type} {x : Job α} {g : α → Job β}, S x →
    (∀ h a k, x.result h = (.ok a, k) → S (g a)) → S (x >>= g)
  settle : ∀ {α : Type} {x : Job α}, S x → S (Job.settle x)
  handle : ∀ {α : Type} {x : Job α} {handler : Failure → Job α}, S x → (∀ f, S (handler f)) →
    S (Job.handle x handler)
  emit : ∀ {e : Effect}, P e → S (Job.emit e)
  tell : ∀ {e : Log.Event} {Q : Data → Prop}, e.Plain →
    (∀ x ∈ e.fields, x.1 = "error" ∨ x.1 = "message" → Q x.2) →
    (∀ x : Effect, x.Tells e.name Q → P x) → S (Job.log e)
  readTimer : S Job.readTimer
  copy : ∀ {content : Json}, P (.copied content) → S (Agent.copy content)
  openService : ∀ {operation : Text} {arguments : Json.Fields}, P (.called operation arguments) →
    S (Model.openService operation arguments)
  callService : ∀ {service : Text} {arguments : Json.Fields},
    (∀ x : Effect, x.Logs "provider_log" → P x) → P (.called (service ++ ".create") arguments) →
      ∀ target, S (Model.callService service target arguments)

end

namespace Job.Hereditary

variable {α β : Type} {P : Effect → Prop} {S : ∀ {α : Type}, Job α → Prop} {x : Job α}

variable [Runtime]

theorem fail (f : Hereditary P S) (e : Failure) : S (Job.fail e : Job α) := f.throw _

/-- Nothing comes after a failure. -/
theorem fail_bind (f : Hereditary P S) (e : Failure) (g : β → Job α) : S (Job.fail e >>= g) :=
  f.bind_of_ok (f.fail e) fun _ _ _ ha => by cases ha

theorem check (f : Hereditary P S) (c : Checked α) : S (Job.check c) := by
  cases c with
  | ok a => exact f.pure a
  | error m => exact f.fail _

theorem take (f : Hereditary P S) (c : Except Failure α) : S (Job.take c) := by
  cases c with
  | ok a => exact f.pure a
  | error e => exact f.fail e

theorem bind (f : Hereditary P S) {g : α → Job β} (hx : S x) (hg : ∀ a, S (g a)) : S (x >>= g) :=
  f.bind_of_ok hx fun _ a _ _ => hg a

theorem map (f : Hereditary P S) (g : α → β) (hx : S x) : S (g <$> x) := by
  rw [← bind_pure_comp]
  exact f.bind hx fun a => f.pure (g a)

theorem attempt (f : Hereditary P S) (hx : S x) : S (Job.attempt x) :=
  f.handle (f.map _ hx) fun _ => f.pure _

theorem say (f : Hereditary P S) {line : Text} (hp : P (.printed (line ++ "\n"))) :
    S (Job.say line) := by
  unfold Job.say
  split
  · exact f.fail _
  · exact f.emit hp

theorem forM (f : Hereditary P S) {g : α → Job Unit} (hg : ∀ a, S (g a)) (as : List α) :
    S (as.forM g) := by
  induction as with
  | nil => exact f.pure ()
  | cons a as ih => exact f.bind (hg a) fun _ => ih

theorem log (f : Hereditary P S) {e : Log.Event} (he : e.Plain)
    (hp : ∀ x : Effect, x.Logs e.name → P x) : S (Job.log e) :=
  f.tell (Q := fun _ => True) he (fun _ _ _ => trivial) fun x hx => hp x hx.logs

/-- A warning tells the user, and the log, of a text without its secrets. -/
theorem warn (f : Hereditary P S) (message : Text) {event : Text} {fields : List (Text × Data)}
    (he : event.OfMarks) (hp : decide (∀ n ∈ fields.map Prod.fst, n ≠ "ts" ∧ n ≠ "event") = true)
    (hs : decide (∀ n ∈ fields.map Prod.fst, n ≠ "error" ∧ n ≠ "message") = true)
    (hw : P (.complained ("Warning: " ++ Secret.redact message ++ "\n")))
    (hl : ∀ x : Effect, x.Tells event Redacted → P x) : S (Job.warn message event fields) := by
  refine f.bind (f.emit hw) fun _ =>
    f.tell (Q := Redacted) ⟨he, fun x hx => ?_⟩ (fun x hx hn => ?_) hl
  · rcases List.mem_cons.1 hx with rfl | hx
    · exact (by decide : ("message" : Text) ≠ "ts" ∧ ("message" : Text) ≠ "event")
    · exact Log.Event.fields_of_names hp x hx
  · rcases List.mem_cons.1 hx with rfl | hx
    · exact ⟨message, rfl⟩
    · exact (Log.Event.silent_of_names hs x hx hn).elim

theorem sinceTenth (f : Hereditary P S) (start : Double) : S (Job.sinceTenth start) :=
  f.bind f.readTimer fun _ => f.pure _

theorem since (f : Hereditary P S) (start : Double) : S (Job.since start) := by
  refine f.bind f.readTimer fun t => ?_
  split
  · exact f.pure _
  · exact f.fail _

end Job.Hereditary
end ClipActions
