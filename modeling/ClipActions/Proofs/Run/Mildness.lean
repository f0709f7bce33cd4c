import ClipActions.Action.Builtin
import ClipActions.Proofs.Job.Mild
import ClipActions.Proofs.Run.Course

/-!
Runs on mild hosts. What a run asks of the model service, of its action and of the clipboard halts
mildly there, and the run passes on no halt that it has not met.
-/
namespace ClipActions

open Job (Any Mild MildAt)

namespace Model

variable {c : Client} {p : Provider}

theorem openService_mild (operation : Text) (arguments : Json.Fields) :
    Mild Any (openService operation arguments) := by
  refine (Mild.emit _).bind fun _ _ => .get fun h hm => ?_
  split
  · rename_i e he
    exact Mild.throw (hm.opening _ _ e he) h hm
  · exact Mild.pure trivial h hm

section

variable [Runtime]

theorem callService_mild (service : Text) (target : Option Text) (arguments : Json.Fields) :
    Mild Any (callService service target arguments) := by
  unfold callService
  refine (Mild.emit _).bind fun _ _ => .get fun h hm => ?_
  split
  rename_i answer left heq
  have hanswer : MildEnd answer ∧ left ⊆ h.service := by
    split at heq
    · cases heq
      exact ⟨hm.silence, List.nil_subset _⟩
    · rename_i hservice
      cases heq
      rw [hservice]
      exact ⟨hm.service _ (hservice ▸ List.mem_cons_self), List.subset_cons_self _ _⟩
  obtain ⟨hanswer, hleft⟩ := hanswer
  have hset : Mild Any (set { h with service := left } : Job Unit) := fun _ _ =>
    ⟨⟨fun answer ha => hm.service answer (hleft ha), hm.silence, hm.opening, hm.copying,
      hm.loading, hm.registry⟩, .ok _, fun _ _ => trivial⟩
  refine hset.bind (fun _ _ => ?_) h hm
  cases answer with
  | ok reply => exact .pure trivial
  | error e =>
    have hthrow : Mild Any (throw e : Job Service.Reply) := .throw (hanswer e rfl)
    dsimp only
    split
    · split
      · exact (Mild.log _).bind fun _ _ => hthrow
      · exact hthrow
    · exact hthrow

/-- A backend that completes every request mildly. -/
def Backend.Mild (b : Backend) : Prop := ∀ request, Job.Mild Any (b.complete request)

theorem chat_mild (url : Option Text) (key timeout : Json) :
    Mild Backend.Mild (chat url key timeout) :=
  (openService_mild _ _).bind fun _ _ => .pure fun _ =>
    (callService_mild _ _ _).bind fun _ _ => .pure trivial

theorem messages_mild (key timeout : Json) (endpoint : Option Text) :
    Mild Backend.Mild (messages key endpoint timeout) :=
  (openService_mild _ _).bind fun _ _ => .pure fun _ =>
    (callService_mild _ _ _).bind fun _ _ => (Mild.check _).bind fun _ _ => .pure trivial

theorem backend_mild (p : Provider) : Mild Backend.Mild (backend p) := by
  unfold backend
  split
  · split
    · exact .fail _
    · exact messages_mild _ _ _
  · exact chat_mild _ _ _

theorem make_mild (p : Provider) : Mild (fun c => c.backend.Mild) (Client.make p) :=
  (backend_mild p).bind fun _ hb => .pure hb

end

variable (hc : c.backend.Mild)

include hc

variable [Runtime]

theorem generate_mild (prompt system : Json) : Mild Any (c.generate prompt system) := by
  have hsince : ∀ start, Mild Any (Job.sinceTenth start) := fun start =>
    Mild.readTimer.bind fun _ _ => .pure trivial
  have herror : ∀ start f, Mild Any (c.logError start f) := fun start f =>
    (hsince start).bind fun _ _ => .log _
  have hresponse : ∀ start response, Mild Any (c.logResponse start response) := by
    intro start response
    refine (Mild.check _).bind fun usage _ => (Mild.check _).bind fun model _ =>
      (hsince start).bind fun latency _ => (Mild.check _).bind fun size _ => ?_
    exact (Mild.check _).bind fun input _ => (Mild.check _).bind fun output _ => .log _
  refine (Mild.check _).bind fun size _ => (Mild.log _).bind fun _ _ =>
    Mild.readTimer.bind fun start _ => Mild.bind (Q := Any) ?_ fun response _ =>
      (hresponse start response).bind fun _ _ => .pure trivial
  exact Mild.handle (hc _) fun f => (herror start f).bind fun _ _ => .fail f

theorem answer_mild (call : Call) : Mild Any (c.answer call) := by
  refine (Mild.check _).bind fun ask _ => ?_
  cases ask with
  | generate prompt system => exact generate_mild hc prompt system
  | apply operation text language =>
    exact (Mild.check _).bind fun _ _ => (Mild.check _).bind fun _ _ =>
      (generate_mild hc _ _).bind fun _ _ => (Mild.check _).any

/-- A mild program halts as its calls do, or mildly by itself. -/
theorem runProgram_mild {α : Type} {program : Program α} (hp : program.Mild) :
    Mild Any (runProgram c program) := by
  induction program with
  | done a => exact .pure trivial
  | stop e => exact .throw hp
  | ask call next ih =>
    exact (answer_mild hc call).settle.bind fun answer ha => ih answer (hp answer ha.1)

end Model

namespace Action

/-- A built-in action passes on what its call comes to. -/
theorem builtins_mild : ∀ a ∈ builtins, a.Mild := by
  have hperform : ∀ operation task, (perform operation task).Mild := by
    intro operation task answer ha
    cases answer with
    | ok reply => trivial
    | error e => exact ha e rfl
  intro a hb task
  simp only [builtins, List.mem_cons, List.not_mem_nil, or_false] at hb
  rcases hb with rfl | rfl | rfl | rfl | rfl | rfl | rfl <;> exact hperform _ _

end Action

namespace Gate

variable {config : Json} {request : Request}

theorem askTerminal_mild (message : Text) : Mild Any (askTerminal message) :=
  (Mild.emit _).bind fun _ _ => Mild.readLine.bind fun _ _ => .pure trivial

variable [Runtime]

theorem pass_mild (ha : ∀ message, Mild Any (request.ask message)) :
    Mild Any (pass config request) := by
  have hjudge : ∀ p, Mild Any (judge p request) := by
    intro p
    unfold judge
    dsimp only
    split
    · exact (Mild.log _).bind fun _ _ => .fail _
    split
    · exact .log _
    · refine (ha _).bind fun agreed _ => ?_
      split
      · exact .log _
      · exact (Mild.log _).bind fun _ _ => .fail _
  refine (Mild.check _).bind fun settings _ => (Mild.check _).bind fun mode _ => ?_
  split
  · refine (Mild.check _).bind fun p _ => ?_
    split
    · exact hjudge p
    · exact .pure trivial
  · exact .pure trivial

end Gate

section

variable [Runtime]

theorem History.append_mild (file : Path) (e : Entry) : Mild Any (append file e) := by
  have hcomplete : Mild Any (complete e) := by
    intro h hm
    obtain ⟨id, drawn, -, hr⟩ := result_complete e h
    have hdrawn : { h with drawn }.Mild :=
      ⟨hm.service, hm.silence, hm.opening, hm.copying, hm.loading, hm.registry⟩
    exact ⟨by rw [hr]; exact hdrawn, by rw [hr]; exact .ok _, fun _ _ => trivial⟩
  have hwrite : ∀ text, Mild Any (writeLine file text) := by
    intro text
    refine (Mild.change _).bind fun _ _ => ?_
    split
    · exact .change _
    · refine (Mild.change _).bind fun _ _ => ?_
      split
      · exact .fail _
      · exact .pure trivial
  refine hcomplete.bind fun record _ => Mild.bind (Q := Any) (.handle ?_ fun f => .fail _)
    fun _ _ => .pure trivial
  unfold store
  split
  · exact hwrite _
  · exact .fail _

end

namespace Run

variable {registry : Registry} {ask : Gate.Asker} {r : Run} {w : Work}

def Work.Mild (w : Work) : Prop := MildEnd w.ending

section

variable [Runtime]

theorem work_mild {c : Model.Client} (hc : c.backend.Mild) (ha : r.action.Mild) :
    Mild Work.Mild (r.work c) := by
  refine Mild.readTimer.bind fun start _ =>
    (Model.runProgram_mild hc (ha _)).settle.bind fun ending he =>
      (Mild.since start).bind fun latency _ => .pure fun e hw => ?_
  cases ending with
  | ok output => cases hw
  | error halt =>
    cases halt with
    | failed f =>
      cases hw
      trivial
    | interrupted i =>
      cases hw
      exact he.1 _ rfl

end

theorem copy_mild (content : Json) : Mild Any (Agent.copy content) := by
  refine .get fun h hm => ?_
  split
  · exact Mild.fail _ h hm
  · rename_i e _ he
    exact Mild.throw (hm.copying content e he) h hm
  · exact Mild.emit _ h hm

variable [Runtime]

theorem deliver_mild (r : Run) (output : Json) : Mild Any (r.deliver output) := by
  have hprint : Mild Any (printOutput r.action output) :=
    (Mild.say _).bind fun _ _ => (Mild.say _).bind fun _ _ => .say _
  refine hprint.bind fun _ _ => ?_
  split
  · exact (copy_mild output).bind fun _ _ => .say _
  · exact .pure trivial

theorem proceed_mild (ha : r.action.Mild) (hask : ∀ message, Mild Any (ask message))
    (daemon : Bool) : Mild Work.Mild (r.proceed daemon ask) := by
  have henter : Mild (fun c : Model.Client => c.backend.Mild) (r.enter daemon ask) := by
    refine (Gate.pass_mild hask).bind fun _ _ => ?_
    split
    · exact (Mild.say _).bind fun _ _ => Model.make_mild _
    · exact Model.make_mild _
  refine (henter.bind fun c hc => work_mild hc ha).settle.bind fun worked hw => ?_
  cases worked with
  | error e => exact .pure (MildEnd.error (hw.1 e rfl))
  | ok w =>
    dsimp only
    cases ho : w.ending with
    | error e => exact .pure (hw.2 w rfl)
    | ok output =>
      refine (deliver_mild r output).settle.bind fun delivered hd => ?_
      cases delivered with
      | ok u => exact .pure (hw.2 w rfl)
      | error e => exact .pure (MildEnd.error (hd.1 e rfl))

theorem logRun_mild (r : Run) (id : Data) (latency : Int) (outcome : Outcome) :
    Mild Any (r.logRun id latency outcome) := by
  refine (Mild.check _).bind fun size _ => ?_
  cases outcome <;> exact (Mild.check _).bind fun _ _ => .log _

theorem conclude_mild (hw : w.Mild) (file : Path) : Mild Any (r.conclude file w) := by
  have htell : ∀ stored, Mild Any (r.tell file w stored) := by
    intro stored
    unfold tell
    split
    · exact logRun_mild r _ _ _
    · exact .fail _
    · exact .warn _ _ _
  have hanswer : Mild Any w.answer := by
    unfold Work.answer
    split
    · rename_i i he
      exact .throw (hw _ he)
    · split
      · exact .pure trivial
      · exact (Mild.emit _).bind fun _ _ => .pure trivial
  rw [conclude_eq]
  exact (History.append_mild _ _).attempt.bind fun stored _ =>
    (htell stored).bind fun _ _ => hanswer

theorem acquire_mild (o : Options) (ctx : Context) : Mild Any (acquire o ctx) :=
  .of_halts (acquire_keeps (Host.frame_mild fun _ => True)
    ⟨fun _ _ _ => trivial, fun _ _ => trivial⟩ o ctx)
    fun h e he => (acquire_halts o ctx h e he).mild

/-- A run of a mild action on a mild host halts mildly. -/
theorem perform_mild (hr : ∀ a ∈ registry.actions, a.Mild)
    (hask : ∀ message, Mild Any (ask message)) (name : Json) (o : Options) (ctx : Context) :
    Mild Any (perform registry name o ctx ask) := by
  have hlookUp : ∀ a, registry.lookUp name = .ok (some a) → a.Mild := by
    intro a ha
    cases name with
    | str t => exact hr a (List.mem_of_find?_eq_some (Except.ok.inj ha))
    | _ => cases ha
  refine (Mild.check _).bind fun found hn => ?_
  cases found with
  | none =>
    exact ((Mild.log _).bind fun _ _ => (Mild.emit _).bind fun _ _ => Mild.emit _).bind
      fun _ _ => .pure trivial
  | some a =>
    refine (acquire_mild o ctx).attempt.bind fun acquired _ => ?_
    cases acquired with
    | error f => exact (Mild.emit _).bind fun _ _ => .pure trivial
    | ok acquired =>
      refine (Mild.check _).bind fun provider _ => ?_
      exact (proceed_mild (hlookUp a hn) hask _).bind fun w hw => conclude_mild hw _

end Run
end ClipActions
