import ClipActions.Proofs.Run.Keeping

/-!
What is told of a run is the same everywhere: its exit code, its record, the log, the two outputs
and the clipboard agree on whether it has succeeded and with what.
-/
namespace ClipActions

open History (Writable stamped)

open Host (Adds Extends)

open Job (Keeps Halts)

def Effect.copied? : Effect → Option Json
  | .copied content => some content
  | _ => none

section

variable [Runtime]

instance (name : Text) (e : Effect) : Decidable (e.Logs name) :=
  inferInstanceAs (Decidable (e.event? = some name))

end

/-- An effect that neither copies anything nor tells of a run that is over. -/
def Effect.Quiet (e : Effect) : Prop := e.copied? = none ∧ ¬ e.Logs "action_run"

theorem Effect.Logs.quiet {name : Text} {e : Effect} (h : e.Logs name) (hn : name ≠ "action_run") :
    e.Quiet := by
  refine ⟨?_, fun hr => hn (Option.some.inj (h.symm.trans hr))⟩
  cases e with
  | logged target level record => rfl
  | _ => cases h

theorem Gate.IsTalk.quiet {e : Effect} (h : Gate.IsTalk e) : e.Quiet := by
  cases e with
  | printed t => exact ⟨rfl, fun h => by cases h⟩
  | complained t => exact ⟨rfl, fun h => by cases h⟩
  | asked t => exact ⟨rfl, fun h => by cases h⟩
  | _ => cases h

namespace Effect

/-- The contents that are copied, in order. -/
def contents (es : List Effect) : List Json := es.filterMap copied?

/-- What is told of runs that are over, in order. -/
def tellings (es : List Effect) : List Effect := es.filter fun e => e.Logs "action_run"

variable {es fs : List Effect}

theorem contents_append : contents (es ++ fs) = contents es ++ contents fs :=
  List.filterMap_append

theorem tellings_append : tellings (es ++ fs) = tellings es ++ tellings fs :=
  List.filter_append es fs

theorem contents_quiet (h : ∀ e ∈ es, e.Quiet) : contents es = [] :=
  List.filterMap_eq_nil_iff.2 fun e he => (h e he).1

theorem tellings_quiet (h : ∀ e ∈ es, e.Quiet) : tellings es = [] :=
  List.filter_eq_nil_iff.2 fun e he => by simpa using (h e he).2

end Effect

theorem quiet_called (operation : Text) (arguments : Json.Fields) :
    Effect.Quiet (.called operation arguments) := ⟨rfl, fun h => by cases h⟩

namespace Secret

theorem redact_ne_nil {t : Text} (ht : t ≠ []) : redact t ≠ [] := by
  have hmask : ∀ p ∈ patterns, p.mask ≠ [] := by decide
  have hstep : ∀ p ∈ patterns, ∀ t : Text, t ≠ [] → p.redact t ≠ [] := by
    intro p hp t ht
    obtain ⟨s, rest, rfl⟩ := List.exists_cons_of_ne_nil ht
    unfold Pattern.redact maskFrom
    split
    · simp [hmask p hp]
    · simp
  unfold redact
  generalize patterns = ps at hstep
  induction ps generalizing t with
  | nil => exact ht
  | cons p ps ih =>
    exact ih (hstep p List.mem_cons_self t ht) fun q hq => hstep q (List.mem_cons_of_mem p hq)

end Secret

/-- A failure with a kind has a label. -/
theorem Gate.Named.label_ne_nil {f : Failure} (h : Gate.Named (.failed f)) : f.label ≠ [] := by
  unfold Failure.label
  split
  · exact h
  · rename_i hm
    simpa using hm

section

variable [Runtime]

/-- The standard output takes every text that can be encoded. -/
def Runtime.TakesEncoded : Prop := ∀ t : Text, t.Encodable → outputFault? t = none

/-- What is raised when a line is printed, a service is opened or a content is copied has a kind. -/
structure Host.Naming (h : Host) : Prop where
  printing : ∀ t e, Runtime.outputFault? t = some e → Gate.Named (.failed (.thrown e))
  opening : ∀ operation arguments e, h.openHalt? operation arguments = some e → Gate.Named e
  copying : ∀ content e, h.copyHalt? content = some e → Gate.Named e

end

namespace Run

variable {registry : Registry} {name : Json} {o : Options} {ctx : Context} {daemon : Bool}
  {ask : Gate.Asker} {host h k m : Host} {r : Run} {w : Work} {l : Path} {output : Json} {e : Halt}

/-! Delivering an output. -/

/-- The lines that a run has for its output: a header, a rule of the same length, and the output. -/
def lines (a : Action) (output : Json) : List Text :=
  [a.title ++ ":", List.replicate a.title.length ruleSymbol, output.display]

/-- What a run prints of its output. -/
def printed (a : Action) (output : Json) : List Effect :=
  (lines a output).map fun line => .printed (line ++ "\n")

section

variable [Runtime]

/-- The standard output takes the lines of an output. -/
def Prints (a : Action) (output : Json) : Prop :=
  ∀ line ∈ lines a output, Runtime.outputFault? (line ++ "\n") = none

end

/-- What comes behind the output that is copied. -/
def copied (o : Options) (output : Json) : List Effect :=
  if o.copy then [.copied output, .printed ("\n(Copied to clipboard)" ++ "\n")] else []

theorem result_copy (content : Json) (h : Host) : (Agent.copy content).result h =
    match h.clipboardFault, h.copyHalt? content with
    | some reason, _ => (.error (.failed (.clipboard reason)), h)
    | none, some e => (.error e, h)
    | none, none => (Job.emit (.copied content)).result h := by
  unfold Agent.copy
  rw [Job.result_bind_ok (Job.result_get h)]
  generalize h.clipboardFault = fault
  generalize h.copyHalt? content = halt
  rcases fault with _ | reason <;> rcases halt with _ | e <;> rfl

section

variable [Runtime]

theorem printOutput_eq (a : Action) (output : Json) :
    printOutput a output = (lines a output).forM Job.say := by
  have hlast : Job.say output.display = (Job.say output.display >>= fun _ => pure ()) :=
    (bind_pure _).symm
  unfold printOutput
  rw [hlast]
  rfl

/-- What is encoded is printed, the rule among it. -/
theorem prints_of_encodable (hout : Runtime.TakesEncoded)
    {a : Action} (ha : a.title.Encodable) {output : Json} (ho : output.display.Encodable) :
    Prints a output := by
  have hline : ∀ t : Text, t.Encodable → Runtime.outputFault? (t ++ "\n") = none := fun t ht =>
    hout _ (Text.Of.append (P := fun s => s.isLone = false) ht (by decide))
  intro line hl
  simp only [lines, List.mem_cons, List.not_mem_nil, or_false] at hl
  rcases hl with rfl | rfl | rfl
  · exact hline _ (Text.Of.append (P := fun s => s.isLone = false) ha (by decide))
  · refine hline _ fun s hs => ?_
    rw [List.eq_of_mem_replicate hs]
    rfl
  · exact hline _ ho

theorem deliver_ok (hd : (r.deliver output).result h = (.ok (), k)) : Prints r.action output ∧
    k.trace = h.trace ++ (printed r.action output ++ copied r.options output) ∧
      (r.options.copy = true → ((Agent.copy output).result h).1 = .ok ()) := by
  unfold deliver at hd
  rw [printOutput_eq] at hd
  obtain ⟨⟨⟩, m, hprint, hd⟩ := Job.bind_ok hd
  obtain ⟨hprints, rfl⟩ := Job.forM_say_ok hprint
  refine ⟨hprints, ?_⟩
  unfold copied
  split at hd
  · rename_i hcopy
    obtain ⟨⟨⟩, m, hc, hsay⟩ := Job.bind_ok hd
    obtain ⟨-, rfl⟩ := Job.say_ok hsay
    rw [result_copy] at hc ⊢
    dsimp only at hc
    rw [if_pos hcopy]
    split at hc
    · cases hc
    · cases hc
    · cases hc
      exact ⟨by simp [printed], fun _ => rfl⟩
  · rename_i hcopy
    cases hd
    rw [if_neg hcopy]
    exact ⟨by simp [printed], fun h => absurd h hcopy⟩

/-- An output is not delivered if one of its lines is refused or if it cannot be copied. Where all that
is encoded is printed, the notice of the copy is. -/
theorem deliver_error (hout : Runtime.TakesEncoded)
    (hd : (r.deliver output).result h = (.error e, k)) :
    (∃ told : List Text, k.trace = h.trace ++ told.map .printed) ∧
      ((¬ Prints r.action output ∧
          ∃ t x, Runtime.outputFault? t = some x ∧ e = .failed (.thrown x)) ∨
        r.options.copy = true ∧ ((Agent.copy output).result h).1 = .error e) := by
  unfold deliver at hd
  rw [printOutput_eq] at hd
  rcases Job.bind_error hd with hprint | ⟨⟨⟩, m, hprint, hd⟩
  · obtain ⟨⟨line, hl, x, hx, he⟩, told, rfl⟩ := Job.forM_say_error hprint
    refine ⟨⟨told, rfl⟩, .inl ⟨fun hprints => ?_, _, x, hx, he⟩⟩
    rw [hprints line hl] at hx
    cases hx
  · obtain ⟨-, rfl⟩ := Job.forM_say_ok hprint
    split at hd
    · rename_i hcopy
      rcases Job.bind_error hd with hc | ⟨_, m, -, hsay⟩
      · rw [result_copy] at hc ⊢
        dsimp only at hc
        refine ⟨⟨(lines r.action output).map (· ++ "\n"), ?_⟩, .inr ⟨hcopy, ?_⟩⟩
        · split at hc <;> cases hc <;> simp
        · split at hc <;> cases hc <;> rfl
      · obtain ⟨⟨x, hx, -⟩, -⟩ := Job.say_error hsay
        rw [hout _ (by decide)] at hx
        cases hx
    · cases hd

end

theorem copy_congr {content : Json} (hf : k.clipboardFault = h.clipboardFault)
    (hc : k.copyHalt? = h.copyHalt?) :
    ((Agent.copy content).result k).1 = ((Agent.copy content).result h).1 := by
  rw [result_copy, result_copy, hf, hc]
  split <;> rfl

/-! What the stages of a run leave behind before its output. -/

theorem agentTold_quiet : Agent.Told Effect.Quiet :=
  ⟨fun _ _ _ => ⟨rfl, fun h => by cases h⟩, fun _ h => h.quiet (by decide)⟩

theorem modelTold_quiet : Model.Told Effect.Quiet :=
  ⟨fun _ h => h.quiet (by decide), fun _ h => h.logs.quiet (by decide),
    fun _ h => h.quiet (by decide), fun _ h => h.logs.quiet (by decide)⟩

theorem quiet_printed (t : Text) : Effect.Quiet (.printed t) := ⟨rfl, fun h => by cases h⟩

theorem quiet_of_map_printed {told : List Text} : ∀ e ∈ told.map Effect.printed, Effect.Quiet e := by
  intro e he
  obtain ⟨t, -, rfl⟩ := List.mem_map.1 he
  exact quiet_printed t

theorem quiet_of_printed {a : Action} : ∀ e ∈ printed a output, Effect.Quiet e := by
  intro e he
  obtain ⟨line, -, rfl⟩ := List.mem_map.1 he
  exact quiet_printed _

section

variable [Runtime]

theorem serves_quiet (p : Provider) : Serves (Extends Effect.Quiet) p :=
  serves (Host.frame_extends _) modelTold_quiet quiet_called p

theorem pass_quiet (hask : Gate.Talks ask) :
    Keeps (Extends Effect.Quiet) (Gate.pass r.config (r.request daemon ask)) :=
  Gate.pass_inherits (Host.frame_extends _).hereditary (fun _ h => h.logs.quiet (by decide))
    fun _ h => (hask.keeps _ h).mono fun _ he => he.quiet

theorem prepare_quiet : Keeps (Extends Effect.Quiet) r.prepare :=
  prepare_inherits (Host.frame_extends _).hereditary quiet_printed (serves_quiet _).opening

theorem Worked.quiet (hw : r.Worked daemon ask h w m) (hask : Gate.Talks ask) :
    Extends Effect.Quiet h m := by
  have f := Host.frame_extends Effect.Quiet
  obtain ⟨k, c, n, hg, hc, hw⟩ := hw
  obtain ⟨b, hb⟩ := prepare_backend hc
  have hpass : Extends Effect.Quiet h k := (pass_quiet hask).after hg
  have hprepare : Extends Effect.Quiet k n := prepare_quiet.after hc
  have hwork : Extends Effect.Quiet n m :=
    (work_inherits f.hereditary modelTold_quiet ((serves_quiet _).complete b _ n hb)).after hw
  exact f.trans (f.trans hpass hprepare) hwork

/-- A run whose output is delivered prints it and copies it; of any other, nothing is copied. -/
theorem Ends.reports (hout : Runtime.TakesEncoded)
    (he : r.Ends daemon ask h w k) (hask : Gate.Talks ask) :
    (∃ output before, w.ending = .ok output ∧ (∀ e ∈ before, Effect.Quiet e) ∧
      k.trace = h.trace ++ before ++ (printed r.action output ++ copied r.options output)) ∨
    ∃ e, w.ending = .error e ∧ Adds Effect.Quiet h k := by
  cases he with
  | held hg => exact .inr ⟨_, rfl, ((pass_quiet hask).after hg).adds⟩
  | unready hg hc =>
    exact .inr ⟨_, rfl, ((pass_quiet hask).after hg).adds.trans (prepare_quiet.after hc).adds⟩
  | stopped hw he => exact .inr ⟨_, he, (hw.quiet hask).adds⟩
  | undelivered hw ho hd =>
    obtain ⟨⟨told, htold⟩, -⟩ := deliver_error hout hd
    exact .inr ⟨_, rfl, (hw.quiet hask).adds.trans ⟨_, htold, quiet_of_map_printed⟩⟩
  | delivered hw ho hd =>
    obtain ⟨before, hbefore, hquiet⟩ := (hw.quiet hask).adds
    exact .inl ⟨_, before, ho, hquiet, by rw [(deliver_ok hd).2.1, hbefore]⟩

/-! When a run succeeds. -/

/-- The gate lets a run pass, a client is made for it, its action returns something, and that can be
copied if it is to be. -/
def Returns (r : Run) (daemon : Bool) (ask : Gate.Asker) (h : Host) (output : Json) : Prop :=
  ∃ k c m start n p, (Gate.pass r.config (r.request daemon ask)).result h = (.ok (), k) ∧
    r.prepare.result k = (.ok c, m) ∧ Job.readTimer.result m = (.ok start, n) ∧
    (Model.runProgram c (r.action.run r.task)).result n = (.ok output, p) ∧
    (r.options.copy = true → ((Agent.copy output).result p).1 = .ok ())

/-- A run returns a text, and the standard output takes its lines. -/
def Succeeds (r : Run) (daemon : Bool) (ask : Gate.Asker) (h : Host) (t : Text) : Prop :=
  r.Returns daemon ask h (.str t) ∧ Prints r.action (.str t)

theorem Ends.succeeds_iff (hout : Runtime.TakesEncoded)
    (he : r.Ends daemon ask h w k) (hm : h.Measurable) (hask : Gate.Talks ask) (t : Text) :
    w.ending = .ok (.str t) ↔ r.Succeeds daemon ask h t := by
  constructor
  · intro hw
    cases he with
    | held hg => cases hw
    | unready hg hc => cases hw
    | undelivered hw' ho hd => cases hw
    | stopped hw' he => cases he.symm.trans hw
    | delivered hw' ho hd =>
      obtain ⟨k, c, m, hg, hc, hw'⟩ := hw'
      obtain ⟨start, n, latency, timer, hstart, hresult⟩ :=
      result_prepared_work hm hask.extends hg hc
      cases hw'.symm.trans hresult
      cases hw.symm.trans ho
      cases hp : (Model.runProgram c (r.action.run r.task)).result n with
      | mk returned p =>
        rw [hp] at hw hd
        cases returned with
        | error e => cases hw
        | ok output =>
          cases hw
          obtain ⟨hprints, -, hcopied⟩ := deliver_ok hd
          refine ⟨⟨k, c, m, start, n, p, hg, hc, hstart, hp, fun hcopy => ?_⟩, hprints⟩
          rw [← hcopied hcopy]
          exact copy_congr rfl rfl
  · rintro ⟨⟨k', c, m, start, n, p, hg, hc, hstart, hp, hcopy⟩, hprints⟩
    obtain ⟨start', n', latency, timer, hstart', hresult⟩ :=
      result_prepared_work hm hask.extends hg hc
    cases hstart.symm.trans hstart'
    rw [hp] at hresult
    have hw : r.Worked daemon ask h { latency, ending := .ok (.str t) } { p with timer } :=
      ⟨k', c, m, hg, hc, hresult⟩
    rcases hd : (r.deliver (.str t)).result { p with timer } with ⟨e | ⟨⟩, q⟩
    · obtain ⟨-, ⟨hrefused, -⟩ | ⟨hasked, hfailed⟩⟩ := deliver_error hout hd
      · exact absurd hprints hrefused
      · have hsame : ((Agent.copy (.str t)).result { p with timer }).1 =
            ((Agent.copy (.str t)).result p).1 := copy_congr rfl rfl
        rw [hfailed, hcopy hasked] at hsame
        cases hsame
    · cases he.result.symm.trans (Ends.delivered hw rfl hd).result
      rfl

end

/-! Whatever stops a run has a kind. -/

theorem named_executed (e : Halt) : Gate.Named (executed e) := by
  rcases e with f | i
  · exact fun h => by cases h
  · cases i <;> exact fun h => by cases h

section

variable [Runtime]

theorem prepare_error (hc : r.prepare.result h = (.error e, k)) : e = .failed .missingKey ∨
    (∃ t x, Runtime.outputFault? t = some x ∧ e = .failed (.thrown x)) ∨
    ∃ operation arguments, h.openHalt? operation arguments = some e := by
  have hmake : ∀ {m : Host}, m.openHalt? = h.openHalt? →
      (Model.Client.make r.provider).result m = (.error e, k) → e = .failed .missingKey ∨
        (∃ t x, Runtime.outputFault? t = some x ∧ e = .failed (.thrown x)) ∨
        ∃ operation arguments, h.openHalt? operation arguments = some e := by
    intro m hm hc
    rcases Job.bind_error hc with hb | ⟨b, n, -, hpure⟩
    · rw [← hm]
      exact (Model.backend_error hb).imp_right .inr
    · cases hpure
  unfold prepare at hc
  split at hc
  · rcases Job.bind_error hc with hsay | ⟨⟨⟩, m, hsay, hc⟩
    · obtain ⟨⟨x, hx, rfl⟩, -⟩ := Job.say_error hsay
      exact .inr (.inl ⟨_, x, hx, rfl⟩)
    · obtain ⟨-, rfl⟩ := Job.say_ok hsay
      exact hmake (by rfl) hc
  · exact hmake rfl hc

theorem Ends.named (hout : Runtime.TakesEncoded)
    (he : r.Ends daemon ask h w k) (hm : h.Measurable) (hask : Gate.Talks ask)
    (hn : h.Naming) (hw : w.ending = .error e) : Gate.Named e := by
  cases he with
  | held hg =>
    cases hw
    exact Gate.pass_halts hask.named h e (by rw [hg])
  | @unready _ m _ hg hc =>
    cases hw
    have hpass : Extends Effect.Quiet h m := (pass_quiet hask).after hg
    rcases prepare_error hc with rfl | ⟨t, x, hx, rfl⟩ | ⟨operation, arguments, ho⟩
    · exact fun h => by cases h
    · exact hn.printing t x hx
    · exact hn.opening operation arguments e (hpass.openHalt? ▸ ho)
  | stopped hw' he =>
    obtain ⟨k, c, m, hg, hc, hwork⟩ := hw'
    obtain ⟨start, n, latency, timer, -, hresult⟩ := result_prepared_work hm hask.extends hg hc
    cases hwork.symm.trans hresult
    dsimp only at hw
    generalize ((Model.runProgram c (r.action.run r.task)).result n).1 = returned at hw
    rcases returned with e' | output
    · cases hw
      exact named_executed e'
    · cases hw
  | undelivered hw' ho hd =>
    cases hw
    obtain ⟨-, ⟨-, t, x, hx, rfl⟩ | ⟨-, hcopy⟩⟩ := deliver_error hout hd
    · exact hn.printing t x hx
    rw [result_copy] at hcopy
    split at hcopy
    · cases hcopy
      exact fun h => by cases h
    · rename_i hhalt
      cases hcopy
      exact hn.copying _ e ((hw'.quiet hask).copyHalt? ▸ hhalt)
    · cases hcopy
  | delivered hw' ho hd => cases ho.symm.trans hw

end

/-! What is told of a run. -/

/-- What the log is told of a run that is kept. -/
def told (record : Json.Fields) (target : Log.Target) (now : Instant) : Effect :=
  .logged target (event record).level ((event record).record now)

variable {record : Json.Fields} {target : Log.Target} {now : Instant}

theorem tellings_told : Effect.tellings [told record target now] = [told record target now] := by
  have hlogs : (told record target now).Logs "action_run" :=
    congrArg some (Log.Event.nameIn_record (.of_names rfl) now)
  simp [Effect.tellings, hlogs]

theorem contents_copied (o : Options) :
    Effect.contents (copied o output) = if o.copy then [output] else [] := by
  unfold copied
  split <;> rfl

theorem tellings_copied (o : Options) : Effect.tellings (copied o output) = [] := by
  unfold copied
  split <;> rfl

section

variable [Runtime]

/-- The reports on a run agree: its exit code, its record, and its effects, among them what the log
is told at a time. -/
structure Agree (r : Run) (daemon : Bool) (ask : Gate.Asker) (h : Host) (code : Int)
    (record : Json.Fields) (es : List Effect) (now : Instant) : Prop where
  tellings : ∃ target, Effect.tellings es = [told record target now]
  status : code = 0 ↔ record.find? "status" = some (.str "success")
  succeeds : code = 0 ↔ ∃ t, r.Succeeds daemon ask h t
  success : ∀ t, r.Succeeds daemon ask h t →
    record.find? "output" = some (.str t) ∧ record.find? "error" = none ∧
      (∃ before after, es = before ++ printed r.action (.str t) ++ after) ∧
      Effect.contents es = if r.options.copy then [.str t] else []
  failure : code ≠ 0 → code = 1 ∧ ∃ error before, error ≠ [] ∧
    record.find? "error" = some (.str error) ∧ record.find? "output" = none ∧
      es = before ++ [.complained ("Error: " ++ error ++ "\n")] ∧ Effect.contents es = []

end

variable {latency : Int} {id : Text} {time : Instant} {before : List Effect}

section

variable [Runtime]

theorem agree_of_output (target : Log.Target) {t : Text}
    (hq : ∀ u, r.Succeeds daemon ask h u ↔ t = u) (hbefore : ∀ e ∈ before, Effect.Quiet e)
    (hrecord : record = stamped (r.record latency (.success (.str t))) id time) :
    r.Agree daemon ask h 0 record (before ++ (printed r.action (.str t) ++
      copied r.options (.str t)) ++ [told record target now]) now := by
  refine ⟨⟨target, ?_⟩, ?_, ?_, fun u hu => ?_, fun hn => absurd rfl hn⟩
  · rw [Effect.tellings_append, Effect.tellings_append, Effect.tellings_append,
      Effect.tellings_quiet hbefore, Effect.tellings_quiet quiet_of_printed, tellings_copied,
      tellings_told]
    rfl
  · rw [hrecord, find?_stored (by decide)]
    exact iff_of_true rfl rfl
  · exact iff_of_true rfl ⟨t, (hq t).2 rfl⟩
  · obtain rfl := (hq u).1 hu
    refine ⟨?_, ?_, ⟨before, copied r.options (.str t) ++ [told record target now], ?_⟩, ?_⟩
    · rw [hrecord, find?_stored (by decide)]
      rfl
    · rw [hrecord, find?_stored (by decide)]
      rfl
    · simp only [List.append_assoc]
    · rw [Effect.contents_append, Effect.contents_append, Effect.contents_append,
        Effect.contents_quiet hbefore, Effect.contents_quiet quiet_of_printed, contents_copied]
      exact List.append_nil _

theorem agree_of_error (target : Log.Target) {error : Text}
    (hq : ∀ t, ¬ r.Succeeds daemon ask h t) (he : error ≠ [])
    (hbefore : ∀ e ∈ before, Effect.Quiet e)
    (hrecord : record = stamped (r.record latency (.failure error)) id time) :
    r.Agree daemon ask h 1 record (before ++ [told record target now] ++
      [.complained ("Error: " ++ error ++ "\n")]) now := by
  refine ⟨⟨target, ?_⟩, ?_, ?_, fun t ht => absurd ht (hq t), fun _ => ⟨rfl, error, _, he, ?_, ?_,
    rfl, ?_⟩⟩
  · rw [Effect.tellings_append, Effect.tellings_append, Effect.tellings_quiet hbefore,
      tellings_told]
    rfl
  · rw [hrecord, find?_stored (by decide)]
    refine iff_of_false (by decide) fun hs => ?_
    have hstatus : Json.str "error" = Json.str "success" := Option.some.inj hs
    exact absurd (Json.str.inj hstatus) (by decide)
  · exact iff_of_false (by decide) fun ⟨t, ht⟩ => hq t ht
  · rw [hrecord, find?_stored (by decide)]
    rfl
  · rw [hrecord, find?_stored (by decide)]
    rfl
  · rw [Effect.contents_append, Effect.contents_append, Effect.contents_quiet hbefore]
    rfl

/-- The reports on a run agree, on a standard output that takes at least what can be encoded. Its exit
code is 0 if and only if its record says so, and if and only if it returns a text whose lines are
printed. Then the record, the standard output and, if that is asked for, the clipboard have the output;
else the record has an error, which is the last that is told, and nothing is copied. Either way the log
is told once, of what the record holds. -/
theorem reports_agree (hout : Runtime.TakesEncoded)
    (u : UnderWay registry name o ctx host r h) (hask : Gate.Talks ask)
    (htimer : host.Measurable) (ho : host.LogOpen) (hw : Writable ctx.historyFile l host.disk)
    (hn : host.Naming)
    (hends : ∀ w k, r.Ends ctx.daemon ask h w k →
      r.Storable w ∧ ∀ i, w.ending ≠ .error (.interrupted i)) :
    ∃ code final record line es,
      (perform registry name o ctx ask).result host = (.ok code, final) ∧
      final.trace = host.trace ++ es ∧
      Utf8.encode? (Json.obj record).write = some line ∧ 10 ∉ line ∧
      host.Gains l (line ++ [10]) final ∧
      r.Agree ctx.daemon ask h code record es host.now := by
  have hacquire : Extends Effect.Quiet host h :=
    (acquire_keeps (Host.frame_extends _) agentTold_quiet o ctx).after u.acquired
  have hmeasurable := htimer.of_suffix hacquire.timer
  have hend : ∃ w k, r.Ends ctx.daemon ask h w k := exists_ends hmeasurable hask.extends
  obtain ⟨w, k, he⟩ := hend
  obtain ⟨hs, hnot⟩ := hends w k he
  obtain ⟨id, line, m, -, hline, hten, hgains, htrace, hresult⟩ :=
    result_kept u he hask.extends ho hw hs
  have hnow : k.now = host.now := (he.extended hask.extends).now.trans hacquire.now
  rw [hnow] at hline htrace
  have hnaming : h.Naming :=
    ⟨hn.printing, hacquire.openHalt? ▸ hn.opening, hacquire.copyHalt? ▸ hn.copying⟩
  obtain ⟨acquired, hacquired, hquiet⟩ := hacquire.adds
  have hsucceeds := he.succeeds_iff hout hmeasurable hask
  -- What is told before the record is read off the ending; the record and the log come after it.
  rcases he.reports hout hask with ⟨output, before, hok, hbefore, hk⟩ | ⟨e, herror, hadds⟩
  · have houtcome : w.outcome = .success output := by
      unfold Work.outcome
      rw [hok]
    obtain ⟨t, rfl⟩ := hs.typed.output output houtcome
    rw [hok] at hresult hsucceeds
    have hq : ∀ u, r.Succeeds ctx.daemon ask h u ↔ t = u := by
      intro u
      rw [← hsucceeds]
      simp
    have hall : ∀ e ∈ acquired ++ before, Effect.Quiet e := fun e he =>
      (List.mem_append.1 he).elim (hquiet e) (hbefore e)
    refine ⟨0, m, _, line, _, hresult, ?_, hline, hten, hgains,
      agree_of_output k.target hq hall (by rw [houtcome])⟩
    rw [htrace, hk, hacquired]
    simp [told]
  · obtain ⟨f, rfl⟩ : ∃ f, e = .failed f := by
      rcases e with f | i
      · exact ⟨f, rfl⟩
      · exact absurd herror (hnot i)
    have houtcome : w.outcome = .failure (Secret.redact f.label) := by
      unfold Work.outcome
      rw [herror]
    have hnamed := he.named hout hmeasurable hask hnaming herror
    obtain ⟨before, hk, hbefore⟩ := hadds
    rw [herror] at hresult hsucceeds
    have hq : ∀ t, ¬ r.Succeeds ctx.daemon ask h t := by
      intro t
      rw [← hsucceeds]
      simp
    have hall : ∀ e ∈ acquired ++ before, Effect.Quiet e := fun e he =>
      (List.mem_append.1 he).elim (hquiet e) (hbefore e)
    refine ⟨1, _, _, line, _, hresult, ?_, hline, hten, hgains,
      agree_of_error k.target hq (Secret.redact_ne_nil hnamed.label_ne_nil) hall
        (by rw [houtcome])⟩
    dsimp only
    rw [htrace, hk, hacquired]
    simp [told]

end

/-- The reports on a run that gives its text back. -/
theorem reports_agree_echo : ∃ final record line es,
    (perform ⟨[echo]⟩ (.str "e") {} smallContext).result (smallHost none) = (.ok 0, final) ∧
    final.trace = (smallHost none).trace ++ es ∧
    (smallHost none).Gains "h.jsonl" (line ++ [10]) final ∧
    smallRun.Agree smallContext.daemon Gate.askTerminal
      ((acquire {} smallContext).result (smallHost none)).2 0 record es (smallHost none).now := by
  have u := smallRun_underWay none
  have hout : Runtime.TakesEncoded := fun _ _ => rfl
  have hmeasurable : ((acquire {} smallContext).result (smallHost none)).2.Measurable :=
    Host.measurable_of_nil rfl
  have hsucceeds : smallRun.Succeeds smallContext.daemon Gate.askTerminal
      ((acquire {} smallContext).result (smallHost none)).2 "hi" :=
    ⟨⟨_, _, _, _, _, _, rfl, rfl, rfl, rfl, fun h => by cases h⟩,
      prints_of_encodable hout (by decide) (by decide)⟩
  have hends : ∀ w k, smallRun.Ends smallContext.daemon Gate.askTerminal
      ((acquire {} smallContext).result (smallHost none)).2 w k →
        smallRun.Storable w ∧ ∀ i, w.ending ≠ .error (.interrupted i) := by
    intro w k he
    have hw := (he.succeeds_iff hout hmeasurable Gate.askTerminal_talks _).2 hsucceeds
    obtain ⟨latency, ending⟩ := w
    obtain rfl : ending = .ok (.str "hi") := hw
    refine ⟨⟨⟨⟨_, rfl⟩, fun output ho => ⟨"hi", ?_⟩, .inl rfl, by decide⟩, of_decide_eq_true rfl⟩,
      fun i hi => by cases hi⟩
    cases ho
    rfl
  obtain ⟨code, final, record, line, es, hresult, htrace, -, -, hgains, hagree⟩ :=
    reports_agree hout u Gate.askTerminal_talks (Host.measurable_of_nil rfl) (smallHost_logOpen none)
      (smallHost_writable none)
      ⟨(fun _ _ h => by cases h), (fun _ _ _ h => by cases h), fun _ _ h => by cases h⟩ hends
  obtain rfl : code = 0 := hagree.succeeds.2 ⟨_, hsucceeds⟩
  exact ⟨final, record, line, es, hresult, htrace, hgains, hagree⟩

def giving (output : Json) : Run :=
  { smallRun with
    action := { echo with run := fun _ => .done output }
    provenance := .of { echo with run := fun _ => .done output } {} smallContext }

def given (runtime : Runtime) (output : Json) : Except Halt Int × Host :=
  (@perform runtime ⟨[(giving output).action]⟩ (.str "e") {} smallContext
    Gate.askTerminal).result (smallHost none)

def givenStart (runtime : Runtime) : Host :=
  ((@acquire runtime {} smallContext).result (smallHost none)).2

def givenRecord (output : Json) (outcome : Outcome) : Json.Fields :=
  stamped ((giving output).record 0 outcome) (RunId.make ⟨0⟩ (List.replicate 6 0)) ⟨0⟩

/-- Whether a run has ended with a code and its record is all that the history holds. -/
def leaves (code : Int) (record : Json.Fields) (result : Except Halt Int × Host) : Bool :=
  (match result.1 with
    | .ok c => c = code
    | .error _ => false) &&
  result.2.disk.contentOrEmpty "h.jsonl" =
    (Utf8.encode? (Json.obj record).write).getD [] ++ [10]

theorem eq_of_leaves {code : Int} {record : Json.Fields} {result : Except Halt Int × Host}
    (h : leaves code record result = true) : ∃ final, result = (.ok code, final) ∧
      final.disk.contentOrEmpty "h.jsonl" =
        (Utf8.encode? (Json.obj record).write).getD [] ++ [10] := by
  obtain ⟨⟨e⟩ | ⟨c⟩, final⟩ := result
  · cases h
  · obtain ⟨rfl, hcontent⟩ : c = code ∧ _ := by simpa [leaves] using h
    exact ⟨final, rfl, hcontent⟩

def half : Json := .str [.lone 0]

/-- A run that returns a text which the standard output refuses ends with 1, and its record has an
error. A run that returns a list, and no text, ends with 0, and its record says that it has succeeded. -/
theorem reports_disagree :
    (@Returns Runtime.strict (giving half) false Gate.askTerminal (givenStart Runtime.strict) half ∧
      ∃ final error, given Runtime.strict half = (.ok 1, final) ∧
        final.disk.contentOrEmpty "h.jsonl" = (Utf8.encode?
          (Json.obj (givenRecord half (.failure error))).write).getD [] ++ [10] ∧
        (givenRecord half (.failure error)).find? "status" = some (.str "error")) ∧
    (¬ ∃ t, (giving (.arr [.str "hi"])).Returns false Gate.askTerminal (givenStart Runtime.usual)
        (.str t)) ∧
      ∃ final, given Runtime.usual (.arr [.str "hi"]) = (.ok 0, final) ∧
        final.disk.contentOrEmpty "h.jsonl" = (Utf8.encode? (Json.obj
          (givenRecord (.arr [.str "hi"]) (.success (.arr [.str "hi"])))).write).getD [] ++ [10] ∧
        (givenRecord (.arr [.str "hi"]) (.success (.arr [.str "hi"]))).find? "status" =
          some (.str "success") := by
  refine ⟨⟨⟨_, _, _, _, _, _, rfl, rfl, rfl, rfl, nofun⟩, ?_⟩, ?_, ?_⟩
  · have hleaves : leaves 1 (givenRecord half (.failure
        "'utf-8' codec can't encode character '\\ud800' in position 0: surrogates not allowed"))
        (given Runtime.strict half) = true := by decide +kernel
    obtain ⟨final, hresult, hcontent⟩ := eq_of_leaves hleaves
    exact ⟨final, _, hresult, hcontent, rfl⟩
  · rintro ⟨t, k, c, m, start, n, p, -, -, -, hreturned, -⟩
    cases hreturned
  · have hleaves : leaves 0 (givenRecord (.arr [.str "hi"]) (.success (.arr [.str "hi"])))
        (given Runtime.usual (.arr [.str "hi"])) = true := by decide +kernel
    obtain ⟨final, hresult, hcontent⟩ := eq_of_leaves hleaves
    exact ⟨final, hresult, hcontent, rfl⟩

end Run
end ClipActions
