import ClipActions.Proofs.Run.Keeping

/-!
How a run passes into the history. Until it is concluded it writes nothing but its log; concluding
it stores one record or none; and its exit code is 0 if the record says that it has succeeded and
what it holds can be measured.
-/
namespace ClipActions

open Host (Extends Frame Logged)

open Job (Keeps)

variable {P : Effect → Prop} {R : Host → Host → Prop}

namespace History

variable {file : Path} {h k : Host}

variable [Runtime]

/-- The records that a stretch of a process has stored in a file. Besides, only the log has got
longer. -/
inductive Stores (file : Path) : List Json.Fields → Host → Host → Prop where
  | nothing {h k : Host} (hk : Logged h k) : Stores file [] h k
  | refused {given e} {h m n k : Host} (hm : Logged h m)
    (ha : (append file given).result m = (.error e, n)) (hk : Logged n k) : Stores file [] h k
  | stored {given record} {h m n k : Host} (hm : Logged h m)
    (ha : (append file given).result m = (.ok (Value.ofJsonFields record), n)) (hk : Logged n k) :
    Stores file [record] h k

theorem Stores.after {records : List Json.Fields} {m : Host} (hs : Stores file records h k)
    (hm : Logged m h) : Stores file records m k := by
  cases hs with
  | nothing hk => exact .nothing (hm.trans hk)
  | refused hh ha hk => exact .refused (hm.trans hh) ha hk
  | stored hh ha hk => exact .stored (hm.trans hh) ha hk

theorem Stores.before {records : List Json.Fields} {m : Host} (hs : Stores file records h k)
    (hm : Logged k m) : Stores file records h m := by
  cases hs with
  | nothing hk => exact .nothing (hk.trans hm)
  | refused hh ha hk => exact .refused hh ha (hk.trans hm)
  | stored hh ha hk => exact .stored hh ha (hk.trans hm)

end History

namespace Run

variable {registry : Registry} {name : Json} {o : Options} {ctx : Context} {ask : Gate.Asker}
  {host h k : Host} {r : Run} {w : Work}

/-- What a run tells from when it has acquired what it needs until it is concluded may be told of. -/
structure Told (P : Effect → Prop) : Prop where
  model : Model.Told P
  decision : ∀ x : Effect, x.Notes "safe_mode_decision" → P x
  printed : ∀ t, P (.printed t)
  called : ∀ operation arguments, P (.called operation arguments)
  copied : ∀ output, P (.copied output)
  error : ∀ t, P (.complained ("Error: " ++ Secret.redact t ++ "\n"))

section

variable [Runtime]

/-- A run comes to something in any case. -/
theorem proceed_ok (r : Run) (daemon : Bool) (ask : Gate.Asker) (h : Host) :
    ∃ w k, (r.proceed daemon ask).result h = (.ok w, k) := by
  have hsettled : ∀ result k, ∃ w m, (r.settleWork result).result k = (.ok w, m) := by
    intro result k
    unfold settleWork
    split
    · exact ⟨_, _, rfl⟩
    split
    · exact ⟨_, _, rfl⟩
    rw [Job.result_bind_ok (Job.result_settle _ k)]
    split
    · exact ⟨_, _, rfl⟩
    · exact ⟨_, _, rfl⟩
  rw [result_proceed]
  split
  · exact ⟨_, _, rfl⟩
  · unfold afterGate
    rw [Job.result_bind_ok (Job.result_settle _ _)]
    exact hsettled _ _

/-- A run ends before it is under way, or is concluded once it has come to something. -/
theorem perform_course (f : Frame P R) (t : Told P) (hacquire : Keeps R (acquire o ctx))
    (hask : ∀ p, Keeps R (ask (Gate.question p)))
    (hu : registry.lookUp name = .ok none → Keeps R (reportUnknown registry name))
    (host : Host) :
    R host ((perform registry name o ctx ask).result host).2 ∨
    ∃ r h w m, UnderWay registry name o ctx host r h ∧
      (r.proceed ctx.daemon ask).result h = (.ok w, m) ∧ R host m ∧
      (perform registry name o ctx ask).result host =
        (r.conclude ctx.historyFile w).result m := by
  obtain ⟨r, h, u⟩ | ⟨m, hm⟩ | hnone | ⟨a, e, k, ha, hq⟩ | ⟨a, text, config, m, k, ha, hq, hp⟩ :=
    perform_cases registry name o ctx host
  · obtain ⟨w, m, hw⟩ := proceed_ok r ctx.daemon ask h
    have hproceed : Keeps R (r.proceed ctx.daemon ask) := proceed_inherits f.hereditary
      t.printed t.model t.decision hask (fun output _ => t.copied output) t.called _
    refine .inr ⟨r, h, w, m, u, hw, f.trans (hacquire.after u.acquired) (hproceed.after hw), ?_⟩
    rw [result_perform u, result_finish, Job.result_bind_ok hw]
  · rw [result_perform_misused hm]
    exact .inl (f.refl host)
  · rw [result_perform_unknown hnone]
    exact .inl (f.hereditary.bind (hu hnone) (fun _ => f.pure _) host)
  · rw [result_perform_unacquired ha hq]
    have hreport : Keeps R (do reportError (Secret.redact e.message); return 1 : Job Int) :=
      f.hereditary.bind (f.emit (t.error _)) fun _ => f.pure _
    exact .inl (f.trans (hacquire.after hq) (hreport k))
  · rw [result_perform_unprovided ha hq hp]
    exact .inl (hacquire.after hq)

/-! The record of a run and its exit code. -/

def Succeeded (record : Json.Fields) : Prop := record.find? "status" = some (.str "success")

/-- The input of a record, and its output if it has one, have a length. -/
def Measured (record : Json.Fields) : Prop :=
  ∀ name ∈ (["input", "output"] : List Text), ∀ v, record.find? name = some v →
    ∃ n, v.size = .ok n

/-- A run replays none, or one that is known by a text. -/
def Replays (r : Run) : Prop := r.options.replayOf = .null ∨ ∃ id, r.options.replayOf = .str id

/-- A run is told of if its input and its output have a length: no field of the event is nested. -/
theorem logRun_ok {latency : Int} {outcome : Outcome} (hr : r.Replays) (id : Text)
    (hinput : ∃ n, r.text.size = .ok n)
    (houtput : ∀ output, outcome = .success output → ∃ n, output.size = .ok n) (h : Host) :
    ((r.logRun (.str id) latency outcome).result h).1 = .ok () := by
  have hreplay : ∃ v : Json, (if r.options.replayOf.truthy then r.options.replayOf else .null) = v ∧
      (v = .null ∨ ∃ u, v = .str u) := by
    refine ⟨_, rfl, ?_⟩
    split
    · exact hr
    · exact .inl rfl
  obtain ⟨v, hv, hflat⟩ := hreplay
  obtain ⟨n, hn⟩ := hinput
  unfold logRun
  rw [hv, hn, Job.result_bind_ok (Job.result_check_ok n h)]
  cases outcome with
  | failure error =>
    have hnone : (Json.str []).size = .ok 0 := rfl
    dsimp only
    rw [hnone, Job.result_bind_ok (Job.result_check_ok 0 h)]
    refine Job.log_ok ?_ h
    rcases hflat with rfl | ⟨u, rfl⟩
    · exact .of_nestings rfl
    · exact .of_nestings rfl
  | success output =>
    obtain ⟨size, hsize⟩ := houtput output rfl
    dsimp only
    rw [hsize, Job.result_bind_ok (Job.result_check_ok size h)]
    refine Job.log_ok ?_ h
    rcases hflat with rfl | ⟨u, rfl⟩
    · exact .of_nestings rfl
    · exact .of_nestings rfl

/-- Of a run that is told of, the input has a length, and the output too. -/
theorem sizes_of_logRun {id : Data} {latency : Int} {outcome : Outcome}
    (hr : (r.logRun id latency outcome).result h = (.ok (), k)) :
    (∃ n, r.text.size = .ok n) ∧
      ∀ output, outcome = .success output → ∃ n, output.size = .ok n := by
  unfold logRun at hr
  obtain ⟨n, m, hn, hr⟩ := Job.bind_ok hr
  refine ⟨⟨n, Job.check_ok hn⟩, ?_⟩
  rintro output rfl
  dsimp only at hr
  obtain ⟨size, m', hsize, -⟩ := Job.bind_ok hr
  exact ⟨size, Job.check_ok hsize⟩

end

theorem answer_eq_zero (w : Work) (h : Host) :
    (w.answer.result h).1 = .ok 0 ↔ ∃ output, w.outcome = .success output := by
  unfold Work.answer Work.outcome
  rcases w.ending with (f | i) | output
  · exact iff_of_false (fun hk => by cases hk) fun ⟨_, ho⟩ => by cases ho
  · exact iff_of_false (fun hk => by cases hk) fun ⟨_, ho⟩ => by cases ho
  · exact iff_of_true rfl ⟨output, rfl⟩

variable {latency : Int} {outcome : Outcome} {id : Text} {now : Instant}

theorem succeeded_stamped :
    Succeeded (History.stamped (r.record latency outcome) id now) ↔
      ∃ output, outcome = .success output := by
  unfold Succeeded
  rw [find?_stored (by decide)]
  cases outcome with
  | success output => exact iff_of_true rfl ⟨output, rfl⟩
  | failure error =>
    refine iff_of_false (fun hs => ?_) fun ⟨_, ho⟩ => by cases ho
    have hstatus : Json.str "error" = Json.str "success" := Option.some.inj hs
    exact absurd (Json.str.inj hstatus) (by decide)

theorem measured_stamped :
    Measured (History.stamped (r.record latency outcome) id now) ↔
      (∃ n, r.text.size = .ok n) ∧
        ∀ output, outcome = .success output → ∃ n, output.size = .ok n := by
  have hinput : (History.stamped (r.record latency outcome) id now).find? "input" =
      some r.text := by
    rw [find?_stored (by decide)]
    cases outcome <;> rfl
  have houtput : (History.stamped (r.record latency outcome) id now).find? "output" =
      (r.known latency outcome).find? "output" := find?_stored (by decide)
  unfold Measured
  rw [List.forall_mem_cons, List.forall_mem_singleton, hinput, houtput]
  cases outcome with
  | success output =>
    have hknown : (r.known latency (.success output)).find? "output" = some output := rfl
    rw [hknown]
    simp
  | failure error =>
    have hknown : (r.known latency (.failure error)).find? "output" = none := rfl
    rw [hknown]
    simp

variable [Runtime]

/-- A run whose record is stored is logged under the identifier of the record. -/
theorem tell_stamped (r : Run) (file : Path) (w : Work) (record : Json.Fields) (id : Text)
    (now : Instant) : r.tell file w (.ok (Value.ofJsonFields (History.stamped record id now))) =
      r.logRun (.str id) w.latency w.outcome := by
  unfold tell
  dsimp only
  rw [Value.atName?_ofJsonFields, History.find?_stamped_id]
  rfl

/-- Concluding a run stores one record or none, and the run ends with 0 if and only if its record
says that it has succeeded and can be measured. -/
theorem conclude_stores (hr : r.Replays) (file : Path) (w : Work) (h : Host) :
    ∃ records, History.Stores file records h ((r.conclude file w).result h).2 ∧
      ∀ record ∈ records, ((r.conclude file w).result h).1 = .ok 0 ↔
        Succeeded record ∧ Measured record := by
  have hreport : ∀ stored, Keeps (Extends fun _ => True) (r.report file w stored) :=
    fun stored => report_inherits (Host.frame_extends _).hereditary file w stored
      (fun _ => trivial) (fun _ _ => trivial) (fun _ _ => trivial) fun _ _ => trivial
  rw [conclude_eq, Job.result_bind, Job.result_attempt]
  cases ha : (History.append file (entry (r.record w.latency w.outcome))).result h with
  | mk result n =>
    rcases result with (f | i) | stored
    · exact ⟨[], .refused (.refl h) ha (hreport _ n).logged, fun _ hm => by cases hm⟩
    · exact ⟨[], .refused (.refl h) ha (.refl n), fun _ hm => by cases hm⟩
    obtain ⟨record, hcomplete, rfl⟩ := History.append_returns ha
    obtain ⟨hid, htime⟩ := find?_record_stamp r w.latency w.outcome
    obtain ⟨id, -, rfl⟩ := hcomplete.stamped hid htime
    refine ⟨[_], .stored (.refl h) ha (hreport _ n).logged, ?_⟩
    rw [List.forall_mem_singleton, succeeded_stamped, measured_stamped]
    dsimp only
    unfold report
    rw [tell_stamped]
    cases hlog : (r.logRun (.str id) w.latency w.outcome).result n with
    | mk told m =>
      cases told with
      | error e =>
        rw [Job.result_bind_error hlog]
        refine iff_of_false (fun hk => by cases hk) fun ⟨_, hinput, houtput⟩ => ?_
        cases (congrArg Prod.fst hlog).symm.trans (logRun_ok hr id hinput houtput n)
      | ok u =>
        rw [Job.result_bind_ok hlog, answer_eq_zero]
        exact ⟨fun ho => ⟨ho, sizes_of_logRun hlog⟩, And.left⟩

end Run
end ClipActions
