import Mathlib.Data.List.Forall2
import Mathlib.Data.Option.Basic
import ClipActions.Proofs.Host.Parallel

/-!
Two runs beside each other. Twin hosts differ at most in what their agents answer, in how a model
service is opened and in what has been done on them, and only as far as a bond allows. Jobs agree if
from twin hosts they come to ends that stand for each other and leave twin hosts behind.
-/
namespace ClipActions

/-- What two runs beside each other may differ in. -/
structure Bond where
  /-- Effects that stand for each other. -/
  effect : Effect → Effect → Prop := Eq
  /-- Documents of the agent that stand for each other, by the path they are asked for. -/
  document : Text → Json → Json → Prop := fun _ => Eq
  /-- Paths whose answers may be anything. -/
  hidden : Text → Prop := fun _ => False
  effect_refl : ∀ e, effect e e := by exact fun _ => rfl
  document_refl : ∀ path j, document path j j := by exact fun _ _ => rfl

namespace Agent

section

variable [Runtime]

/-- The same answer, or two good replies whose documents stand for each other. -/
inductive Exchange.Alike (D : Json → Json → Prop) : Exchange → Exchange → Prop where
  | same (x : Exchange) : Alike D x x
  | documents {status : Nat} {body body' : Bytes} {j j' : Json} (hs : isSuccess status = true)
    (hj : documentIn body = .ok (some j)) (hj' : documentIn body' = .ok (some j')) (hd : D j j') :
    Alike D (.reply status body) (.reply status body')

/-- Two agents whose answers stand for each other, but for those of hidden paths. -/
inductive Peer.Alike (B : Bond) : Peer → Peer → Prop where
  | absent : Alike B .absent .absent
  | stale : Alike B .stale .stale
  | serving {routes routes' : List (Text × List Exchange)}
    (hr : ∀ path, ¬ B.hidden path → Option.Rel (List.Forall₂ (Exchange.Alike (B.document path)))
      (routes.lookup path) (routes'.lookup path)) :
    Alike B (.serving routes) (.serving routes')

end

namespace Peer.Alike

variable {B : Bond} {p p' : Peer} {path : Text}

section

variable [Runtime]

theorem serves (ha : Alike B p p') : p'.serves = p.serves := by cases ha <;> rfl

end

/-- The answers of one path are replaced, those of the others are left. -/
theorem lookup_update (routes : List (Text × List Exchange)) (answers : List Exchange)
    (path q : Text) :
    (routes.map fun (r, xs) => if r = path then (r, answers) else (r, xs)).lookup q =
      if q = path then (routes.lookup q).map fun _ => answers else routes.lookup q := by
  induction routes with
  | nil => simp
  | cons route routes ih =>
    obtain ⟨r, xs⟩ := route
    have hkey : (if r = path then (r, answers) else (r, xs)) =
        (r, if r = path then answers else xs) := by split <;> rfl
    simp only [List.map_cons, hkey, List.lookup_cons, ih]
    cases hq : q == r with
    | false => rfl
    | true =>
      obtain rfl := eq_of_beq hq
      by_cases hp : q = path <;> simp [hp]

variable [Runtime]

theorem advance {D : Json → Json → Prop} {xs ys : List Exchange}
    (h : List.Forall₂ (Exchange.Alike D) xs ys) :
    List.Forall₂ (Exchange.Alike D) (Peer.advance xs) (Peer.advance ys) := by
  cases h with
  | nil => exact .nil
  | cons hx hxs =>
    cases hxs with
    | nil => exact .cons hx .nil
    | cons hy hys => exact .cons hy hys

/-- Agents that are alike answer alike and stay so. -/
theorem answer (ha : Alike B p p') (hv : ¬ B.hidden path) :
    Option.Rel (Exchange.Alike (B.document path)) (p.answer path).1 (p'.answer path).1 ∧
      Alike B (p.answer path).2 (p'.answer path).2 := by
  cases ha with
  | absent => exact ⟨.none, .absent⟩
  | stale => exact ⟨.none, .stale⟩
  | @serving routes routes' hr =>
    have hpath := hr path hv
    rw [Peer.answer, Peer.answer]
    generalize hx : routes.lookup path = found at hpath
    generalize hy : routes'.lookup path = found' at hpath
    cases hpath with
    | none => exact ⟨.some (.same _), .serving hr⟩
    | some hxs =>
      cases hxs with
      | nil => exact ⟨.some (.same _), .serving hr⟩
      | cons hfirst hrest =>
        -- The answers of this path move on by one, in step; those of other paths stay.
        refine ⟨.some hfirst, .serving fun q hq => ?_⟩
        rw [lookup_update, lookup_update]
        split
        · rename_i heq
          subst heq
          rw [hx, hy]
          exact .some (advance (.cons hfirst hrest))
        · exact hr q hq

end Peer.Alike
end Agent

namespace Bond

section

variable [Runtime]

/-- Hosts that differ only as far as a bond allows. -/
structure Twins (B : Bond) (h k : Host) : Prop where
  rest : k = { h with agent := k.agent, openHalt? := k.openHalt?, trace := k.trace }
  agent : Agent.Peer.Alike B h.agent k.agent
  opening : ∀ operation arguments arguments',
    B.effect (.called operation arguments) (.called operation arguments') →
      h.openHalt? operation arguments = k.openHalt? operation arguments'
  trace : List.Forall₂ B.effect h.trace k.trace

/-- Results that stand for each other, or the same error. -/
inductive Ends {ε α β : Type} (Q : α → β → Prop) : Except ε α → Except ε β → Prop where
  | ok {a : α} {b : β} (hq : Q a b) : Ends Q (.ok a) (.ok b)
  | error (e : ε) : Ends Q (.error e) (.error e)

/-- From twin hosts two jobs come to ends that stand for each other and leave twin hosts behind. -/
def Agrees {α β : Type} (B : Bond) (Q : α → β → Prop) (x : Job α) (y : Job β) : Prop :=
  ∀ h k, B.Twins h k →
    Ends Q (x.result h).1 (y.result k).1 ∧ B.Twins (x.result h).2 (y.result k).2

/-- A job comes to the same end on twin hosts. -/
def Steady {α : Type} (B : Bond) (x : Job α) : Prop := B.Agrees Eq x x

end

variable {B : Bond} {h k : Host}

section

variable [Runtime]

theorem Twins.split (ht : B.Twins h k) :
    ∃ agent openHalt? trace, k = { h with agent, openHalt?, trace } := ⟨_, _, _, ht.rest⟩

end

section Jobs

variable {ε α α' β β' : Type} {Q Q' : α → α' → Prop} {R : β → β' → Prop} {x : Job α} {y : Job α'}

theorem Ends.refl (r : Except ε α) : Ends Eq r r := by
  cases r with
  | ok a => exact .ok rfl
  | error e => exact .error e

theorem Ends.eq {r r' : Except ε α} (he : Ends Eq r r') : r = r' := by
  cases he with
  | ok hq => rw [hq]
  | error e => rfl

theorem Ends.mono {r : Except ε α} {r' : Except ε α'} (he : Ends Q r r')
    (hs : ∀ a a', Q a a' → Q' a a') : Ends Q' r r' := by
  cases he with
  | ok hq => exact .ok (hs _ _ hq)
  | error e => exact .error e

namespace Agrees

variable [Runtime]

theorem pure {a : α} {a' : α'} (hq : Q a a') : B.Agrees Q (Pure.pure a) (Pure.pure a') :=
  fun _ _ ht => ⟨.ok hq, ht⟩

theorem throw (e : Halt) : B.Agrees Q (MonadExcept.throw e) (MonadExcept.throw e) :=
  fun _ _ ht => ⟨.error e, ht⟩

theorem fail (f : Failure) : B.Agrees Q (Job.fail f) (Job.fail f) := throw _

theorem mono (hx : B.Agrees Q x y) (hs : ∀ a a', Q a a' → Q' a a') : B.Agrees Q' x y := by
  intro h k ht
  obtain ⟨hends, htwins⟩ := hx h k ht
  exact ⟨hends.mono hs, htwins⟩

/-- What comes second counts only where something comes of the first. -/
theorem bind_of_ok {f : α → Job β} {g : α' → Job β'} (hx : B.Agrees Q x y)
    (hf : ∀ h a k a', x.result h = (.ok a, k) → Q a a' → B.Agrees R (f a) (g a')) :
    B.Agrees R (x >>= f) (y >>= g) := by
  intro h k ht
  obtain ⟨hends, htwins⟩ := hx h k ht
  rw [Job.result_bind, Job.result_bind]
  generalize hr : x.result h = r at hends htwins
  generalize hr' : y.result k = r' at hends htwins
  obtain ⟨r, m⟩ := r
  obtain ⟨r', m'⟩ := r'
  cases hends with
  | ok hq => exact hf h _ m _ hr hq m m' htwins
  | error e => exact ⟨.error e, htwins⟩

theorem bind {f : α → Job β} {g : α' → Job β'} (hx : B.Agrees Q x y)
    (hf : ∀ a a', Q a a' → B.Agrees R (f a) (g a')) : B.Agrees R (x >>= f) (y >>= g) :=
  hx.bind_of_ok fun _ a _ a' _ hq => hf a a' hq

/-- The halts of both are handled alike. -/
theorem handle {f : Failure → Job α} {g : Failure → Job α'} (hx : B.Agrees Q x y)
    (hf : ∀ e, B.Agrees Q (f e) (g e)) : B.Agrees Q (Job.handle x f) (Job.handle y g) := by
  intro h k ht
  obtain ⟨hends, htwins⟩ := hx h k ht
  rw [Job.result_handle, Job.result_handle]
  generalize hr : x.result h = r at hends htwins
  generalize hr' : y.result k = r' at hends htwins
  obtain ⟨r, m⟩ := r
  obtain ⟨r', m'⟩ := r'
  cases hends with
  | ok hq => exact ⟨.ok hq, htwins⟩
  | error e =>
    cases e with
    | failed e => exact hf e m m' htwins
    | interrupted i => exact ⟨.error _, htwins⟩

theorem settle (hx : B.Agrees Q x y) : B.Agrees (Ends Q) (Job.settle x) (Job.settle y) := by
  intro h k ht
  obtain ⟨hends, htwins⟩ := hx h k ht
  rw [Job.result_settle, Job.result_settle]
  exact ⟨.ok hends, htwins⟩

theorem map {f : α → β} {g : α' → β'} (hx : B.Agrees Q x y)
    (hf : ∀ a a', Q a a' → R (f a) (g a')) : B.Agrees R (f <$> x) (g <$> y) := by
  rw [← bind_pure_comp, ← bind_pure_comp]
  exact hx.bind fun a a' hq => pure (hf a a' hq)

theorem attempt (hx : B.Agrees Q x y) : B.Agrees (Ends Q) (Job.attempt x) (Job.attempt y) :=
  (hx.map fun _ _ hq => .ok hq).handle fun f => pure (.error f)

theorem ite {c : Prop} [Decidable c] {x' : Job α} {y' : Job α'} (hx : B.Agrees Q x y)
    (hx' : B.Agrees Q x' y') : B.Agrees Q (if c then x else x') (if c then y else y') := by
  split
  · exact hx
  · exact hx'

/-- What a job does with the host it begins with. -/
theorem get {f : Host → Job β} {g : Host → Job β'}
    (hf : ∀ h k, B.Twins h k →
      Ends R ((f h).result h).1 ((g k).result k).1 ∧ B.Twins ((f h).result h).2 ((g k).result k).2) :
    B.Agrees R ((MonadState.get : Job Host) >>= f) ((MonadState.get : Job Host) >>= g) := hf

end Agrees

namespace Steady

variable [Runtime]

theorem pure (a : α) : B.Steady (Pure.pure a : Job α) := Agrees.pure rfl

theorem throw (e : Halt) : B.Steady (MonadExcept.throw e : Job α) := Agrees.throw e

theorem fail (f : Failure) : B.Steady (Job.fail f : Job α) := Agrees.fail f

/-- Both jobs begin with the same. -/
theorem before {f : α → Job β} {g : α → Job β'} (hx : B.Steady x)
    (hf : ∀ a, B.Agrees R (f a) (g a)) : B.Agrees R (x >>= f) (x >>= g) :=
  Agrees.bind hx fun a _ he => he ▸ hf a

theorem bind_of_ok {f : α → Job β} (hx : B.Steady x)
    (hf : ∀ h a k, x.result h = (.ok a, k) → B.Steady (f a)) : B.Steady (x >>= f) :=
  Agrees.bind_of_ok hx fun h a k _ hr he => he ▸ hf h a k hr

theorem bind {f : α → Job β} (hx : B.Steady x) (hf : ∀ a, B.Steady (f a)) :
    B.Steady (x >>= f) := hx.before hf

theorem settle (hx : B.Steady x) : B.Steady (Job.settle x) :=
  (Agrees.settle hx).mono fun _ _ he => he.eq

theorem handle {f : Failure → Job α} (hx : B.Steady x) (hf : ∀ e, B.Steady (f e)) :
    B.Steady (Job.handle x f) := Agrees.handle hx hf

end Steady
end Jobs
end Bond

/-- A job neither looks at the agent, the openings and the trace of its host nor changes them. -/
def Job.Aside {α : Type} (x : Job α) : Prop :=
  ∀ h agent openHalt? trace, x.result { h with agent, openHalt?, trace } =
    ((x.result h).1, { (x.result h).2 with agent, openHalt?, trace })

namespace Job.Aside

variable {α : Type} {x : Job α}

theorem change (f : Disk → Disk × Option Failure) : Aside (change f) := by
  intro h agent openHalt? trace
  rw [result_change, result_change]
  dsimp only
  cases (f h.disk).2 <;> rfl

theorem somethingAt (p : Path) : Aside (somethingAt p) := by
  intro h agent openHalt? trace
  unfold Job.somethingAt
  rw [result_bind_ok (result_get _), result_bind_ok (result_get _)]
  cases h.disk.find? p <;> rfl

theorem readText (p : Path) : Aside (readText p) := by
  intro h agent openHalt? trace
  unfold Job.readText
  rw [result_bind_ok (result_get _), result_bind_ok (result_get _)]
  cases h.disk.read p <;> rfl

variable [Runtime]

theorem logRecord (r : Log.Record) : Aside (logRecord r) := by
  intro h agent openHalt? trace
  unfold Job.logRecord
  split
  · rw [result_bind_ok (result_get _), result_bind_ok (result_get _)]
    obtain ⟨now, home, draws, drawn, timer, -, refusal, service, silence, -, clipboardFault, copyHalt?,
      terminal, disk, load, target, registry, -⟩ := h
    cases target with
    | observer => rfl
    | nowhere => rfl
    | file p first =>
      dsimp only
      cases Log.Block.format first now r <;> rfl
  · rfl

end Job.Aside

namespace Bond

variable {B : Bond} {α : Type} {x : Job α}

variable [Runtime]

/-- What stands aside does the same on twin hosts. -/
theorem Steady.of_aside (hx : x.Aside) : B.Steady x := by
  intro h k ht
  obtain ⟨agent, openHalt?, trace, rfl⟩ := ht.split
  -- Given back its own agent, openings and trace, the host is the same: so the job has left them.
  have hself := hx h h.agent h.openHalt? h.trace
  have hleft : (x.result h).2 = { (x.result h).2 with
      agent := h.agent, openHalt? := h.openHalt?, trace := h.trace } := congrArg Prod.snd hself
  rw [hx h agent openHalt? trace]
  refine ⟨.refl _, rfl, ?_, ?_, ?_⟩
  · rw [congrArg Host.agent hleft]
    exact ht.agent
  · rw [congrArg Host.openHalt? hleft]
    exact ht.opening
  · rw [congrArg Host.trace hleft]
    exact ht.trace

/-- What runs in parallel on twin hosts does the same on them. -/
theorem Steady.of_parallel (hx : x.Parallel B.Twins) : B.Steady x := by
  intro h k ht
  obtain ⟨hend, hleft⟩ := hx h k ht
  rw [hend]
  exact ⟨.refl _, hleft⟩

theorem Steady.parallel (hx : B.Steady x) : x.Parallel B.Twins := by
  intro h k ht
  obtain ⟨hends, hleft⟩ := hx h k ht
  exact ⟨hends.eq.symm, hleft⟩

/-- With the same arguments a service is opened alike, and nothing else is looked up that is not the
same on twin hosts. -/
theorem Twins.likeness (B : Bond) : Host.Likeness B.Twins where
  rest {h k} ht := by
    have hopening : k.openHalt? = h.openHalt? := by
      funext operation arguments
      exact (ht.opening operation arguments arguments (B.effect_refl _)).symm
    obtain ⟨agent, openHalt?, trace, rfl⟩ := ht.split
    obtain rfl : openHalt? = h.openHalt? := hopening
    rfl
  add e ht := by
    obtain ⟨agent, openHalt?, trace, rfl⟩ := ht.split
    exact ⟨rfl, ht.agent, ht.opening, List.rel_append ht.trace (.cons (B.effect_refl e) .nil)⟩
  use timer service terminal drawn ht := by
    obtain ⟨agent, openHalt?, trace, rfl⟩ := ht.split
    exact ⟨rfl, ht.agent, ht.opening, ht.trace⟩
  logRecord r := (Steady.of_aside (.logRecord r)).parallel

/-- One effect each, which stand for each other. -/
theorem Agrees.emit {e e' : Effect} (he : B.effect e e') :
    B.Agrees Eq (Job.emit e) (Job.emit e') := by
  intro h k ht
  obtain ⟨agent, openHalt?, trace, rfl⟩ := ht.split
  exact ⟨.ok rfl, rfl, ht.agent, ht.opening, List.rel_append ht.trace (.cons he .nil)⟩

/-- A service is opened with arguments that stand for each other. -/
theorem Agrees.openService {operation : Text} {arguments arguments' : Json.Fields}
    (he : B.effect (.called operation arguments) (.called operation arguments')) :
    B.Agrees Eq (Model.openService operation arguments)
      (Model.openService operation arguments') := by
  refine (Agrees.emit he).bind fun _ _ _ => Agrees.get fun h k ht => ?_
  rw [← ht.opening operation arguments arguments' he]
  cases h.openHalt? operation arguments with
  | some e => exact Steady.throw e h k ht
  | none => exact Steady.pure () h k ht

namespace Steady

theorem emit (e : Effect) : B.Steady (Job.emit e) := Agrees.emit (B.effect_refl e)

theorem log (e : Log.Event) : B.Steady (Job.log e) := .of_parallel ((Twins.likeness B).log e)

theorem callService (service : Text) (arguments : Json.Fields) (target : Option Text) :
    B.Steady (Model.callService service target arguments) :=
  .of_parallel ((Twins.likeness B).callService service arguments target)

/-- What a job looks up is the same on twin hosts. -/
theorem get {f : Host → Job α}
    (hs : ∀ h agent openHalt? trace, f { h with agent, openHalt?, trace } = f h)
    (hf : ∀ h, B.Steady (f h)) : B.Steady ((MonadState.get : Job Host) >>= f) := by
  refine Agrees.get fun h k ht => ?_
  obtain ⟨agent, openHalt?, trace, hk⟩ := ht.split
  have hsame : f k = f h := by rw [hk, hs]
  rw [hsame]
  exact hf h h k ht

/-- Steadiness is handed on, whatever the parts of a job do to their surroundings. -/
theorem hereditary (B : Bond) : Job.Hereditary (fun _ => True) B.Steady where
  pure := pure
  throw := throw
  bind_of_ok := bind_of_ok
  settle := settle
  handle := handle
  emit _ := emit _
  tell _ _ _ := log _
  readTimer := .of_parallel (Twins.likeness B).readTimer
  copy _ := .of_parallel ((Twins.likeness B).copy _)
  openService _ := Agrees.openService (B.effect_refl _)
  callService _ _ := callService _ _

end Steady

/-! ### The agent -/
namespace Agrees

open Agent

/-- What comes back for a path that is not hidden. -/
theorem exchange {path : Text} (hv : ¬ B.hidden path) (socket : Path) (method : Text)
    (body : Option Json) :
    B.Agrees (Exchange.Alike (B.document path)) (exchange socket method path body)
      (exchange socket method path body) := by
  refine Agrees.get fun h k ht => ?_
  obtain ⟨hx, ha⟩ := ht.agent.answer hv
  have hmet : Exchange.Alike (B.document path)
      ((h.agent.answer path).1.getD (.failed (h.refusal socket)))
      ((k.agent.answer path).1.getD (.failed (k.refusal socket))) := by
    have hrefusal : k.refusal = h.refusal := by rw [ht.rest]
    rw [hrefusal]
    generalize (h.agent.answer path).1 = x at hx
    generalize (k.agent.answer path).1 = y at hx
    cases hx with
    | none => exact .same _
    | some hx => exact hx
  have hanswer : B.Agrees (Exchange.Alike (B.document path))
      ((modify fun host => { host with agent := (h.agent.answer path).2 } : Job Unit) >>=
        fun _ => Pure.pure ((h.agent.answer path).1.getD (.failed (h.refusal socket))))
      ((modify fun host => { host with agent := (k.agent.answer path).2 } : Job Unit) >>=
        fun _ => Pure.pure ((k.agent.answer path).1.getD (.failed (k.refusal socket)))) := by
    intro h' k' ht'
    obtain ⟨agent, openHalt?, trace, rfl⟩ := ht'.split
    exact ⟨.ok hmet, rfl, ha, ht'.opening, ht'.trace⟩
  rw [ht.agent.serves]
  cases h.agent.serves with
  | true =>
    have hasked := (Steady.emit (B := B) (.requested method path body)).before fun _ => hanswer
    exact hasked h k ht
  | false => exact hanswer h k ht

theorem socketThere (socket : Path) : B.Steady (socketThere socket) := by
  refine Agrees.get fun h k ht => ?_
  have hkind := ht.agent
  generalize h.agent = p at hkind
  generalize k.agent = p' at hkind
  cases hkind with
  | absent => exact Steady.of_aside (.somethingAt socket) h k ht
  | stale => exact ⟨.ok rfl, ht⟩
  | serving hr => exact ⟨.ok rfl, ht⟩

/-- Documents that are asked for on a path that is not hidden stand for each other. -/
theorem request {path : Text} (hv : ¬ B.hidden path) (socket : Path) (method : Text)
    (body : Option Json) :
    B.Agrees (B.document path) (request socket method path body)
      (request socket method path body) := by
  have hlog (kind message : Text) : B.Steady (logFailure socket method path kind message) :=
    Steady.log _
  unfold Agent.request
  refine (socketThere socket).before fun there => ite (fail _) ?_
  cases body.bind Runtime.bodyFault? with
  | some e => exact fail _
  | none =>
    refine (exchange hv socket method body).bind fun x x' hx => ?_
    cases hx with
    | same x =>
      cases x with
      | failed e =>
        exact ite ((hlog _ _).before fun _ => fail _) ((hlog _ _).before fun _ => fail _)
      | reply status bytes =>
        refine ((Steady.hereditary B).take _).before fun document => ite ?_ ((hlog _ _).before fun _ => fail _)
        cases document with
        | some j => exact pure (B.document_refl path j)
        | none => exact fail _
    | documents hs hj hj' hd =>
      simp only [hs, hj, hj', Job.take, pure_bind, if_true]
      exact pure hd

end Agrees
end Bond
end ClipActions
