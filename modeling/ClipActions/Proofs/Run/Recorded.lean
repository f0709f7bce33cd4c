import ClipActions.Proofs.History.Reading
import ClipActions.Proofs.Registry.Merge
import ClipActions.Proofs.Run.Keeping
import ClipActions.Proofs.Run.Latency

/-!
Records of runs as the history has them. Whatever a run came to, its record is read back as it was
written, and what it was asked to do can be asked for again.
-/
namespace ClipActions

open History (stamped)

namespace Run

variable {registry : Registry} {record : History.Record} {r : Run} {latency : Int} {w : Work}
  {outcome : Outcome} {id : Text}

/-- The texts of a record are those that the run was asked with, those of the provider and those of
what the run came to. -/
theorem encodable_record : (∀ t ∈ Json.fieldStrings (r.record latency outcome), t.Encodable) ↔
    r.provenance.action.Encodable ∧ (∀ t ∈ Json.itemStrings r.options.args, t.Encodable) ∧
      r.provenance.source.Encodable ∧ r.provenance.trigger.Encodable ∧
      r.provider.type.Encodable ∧ r.provider.model.Encodable ∧
      (∀ t ∈ r.text.strings, t.Encodable) ∧ (∀ t ∈ outcome.field.2.strings, t.Encodable) ∧
      (r.options.replayOf.truthy → ∀ t ∈ r.options.replayOf.strings, t.Encodable) := by
  have hname : outcome.field.1.Encodable := by
    cases outcome <;> exact of_decide_eq_true rfl
  have hstatus : outcome.status.Encodable := by
    cases outcome <;> exact of_decide_eq_true rfl
  have hnames : ∀ name ∈ (["action", "args", "source", "trigger", "provider", "model", "latency_ms",
      "status", "copy", "input", "replay_of"] : List Text), name.Encodable := by decide
  have hput (v : Json) : (r.known latency outcome).put "replay_of" v =
      r.known latency outcome ++ ([("replay_of", v)] : Json.Fields) := by
    cases outcome <;> rfl
  simp only [List.forall_mem_cons] at hnames
  rw [record_eq]
  split
  · rename_i hreplay
    rw [hput]
    simp [known, Json.fieldStrings, Json.strings, hnames, hname, hstatus, hreplay, or_imp,
      forall_and]
  · rename_i hreplay
    simp [known, Json.fieldStrings, Json.strings, hnames, hname, hstatus, hreplay, or_imp,
      forall_and]

variable [Runtime]

/-- A record of texts where texts are promised is plain if its arguments are. -/
theorem Typed.isPlain (ht : r.Typed outcome) (ha : Json.arePlain r.options.args = true)
    (hl : (Text.ofNat latency.natAbs).length ≤ Json.maxDigits) :
    (Json.obj (r.record latency outcome)).isPlain = true := by
  obtain ⟨t, hinput⟩ := ht.input
  have hfield : outcome.field.2.isPlain = true := by
    cases outcome with
    | success output =>
      obtain ⟨u, rfl⟩ := ht.output output rfl
      rfl
    | failure error => rfl
  have hknown : (Json.obj (r.known latency outcome)).isPlain = true := by
    refine Json.isPlain_obj.2 ⟨known_nodup r latency outcome, ?_⟩
    simp [known, Json.havePlain, Json.isPlain, ha, hinput, hfield, hl]
  rw [record_eq]
  split
  · refine Json.isPlain_put hknown ?_
    rcases ht.replayOf with hr | ⟨u, hr⟩
    · rw [hr]
      rfl
    · rw [hr]
      rfl
  · exact hknown

/-- The record of a run for whose name a registry has an action, whatever the run came to. -/
inductive Recorded (registry : Registry) : History.Record → Prop where
  | intro {name : Text} {o : Options} {ctx : Context} {ask : Gate.Asker} {host h k : Host}
    {r : Run} {w : Work} {id : Text} (u : UnderWay registry (.str name) o ctx host r h)
    (he : r.Ends ctx.daemon ask h w k) (hs : r.Storable w) (ha : Json.arePlain o.args = true)
    (hd : History.Drawn k.now id) :
    Recorded registry (stamped (r.record w.latency w.outcome) id k.now)

/-- What a record asks a registry for: an action by its identifier, with arguments and an input. -/
structure Asks (registry : Registry) (record : History.Record) (a : Action) (args : List Json)
    (input : Text) : Prop where
  action_eq : record.find? "action" = some (.str a.id)
  args_eq : record.find? "args" = some (.arr args)
  input_eq : record.find? "input" = some (.str input)
  resolves : registry.resolve a.id = some a
  present : input ≠ []
  plain : Json.arePlain args = true
  shallow : Json.itemNesting args + 1 < Runtime.jsonDepth
  encodable : a.id.Encodable ∧ (∀ t ∈ Json.itemStrings args, t.Encodable) ∧ input.Encodable

namespace Recorded

theorem isPlain (hr : Recorded registry record) : (Json.obj record).isPlain = true := by
  obtain ⟨u, he, hs, ha, -⟩ := hr
  rw [← u.options] at ha
  exact Json.isPlain_put (Json.isPlain_put (hs.typed.isPlain ha he.latency) rfl) rfl

theorem nesting (hr : Recorded registry record) : (Json.obj record).nesting ≤ Runtime.jsonDepth := by
  obtain ⟨-, -, hs, -, -⟩ := hr
  exact Nat.lt_of_le_of_lt (History.fieldNesting_stamped _ _ _) (hs.typed.nesting _)

theorem named (hr : Recorded registry record) : ∃ id : Text,
    record.find? "id" = some (.str id) ∧ id ≠ [] ∧ id.Encodable := by
  obtain ⟨-, -, -, -, hd⟩ := hr
  exact ⟨_, History.find?_stamped_id _ _ _, hd.ne_nil, hd.encodable⟩

/-- Every name belongs to one action, so the identifier of the action leads to it again. -/
theorem asks (hr : Recorded registry record) (ha : Registry.Apart registry.actions) :
    ∃ a args input, Asks registry record a args input := by
  obtain @⟨name, o, ctx, ask, host, h, k, r, w, id, u, he, hs, hargs, hd⟩ := hr
  obtain ⟨input, hinput⟩ := hs.typed.input
  have haction : r.provenance.action = r.action.id := by rw [u.provenance]; rfl
  have hresolve : registry.resolve name = some r.action := Except.ok.inj u.action
  obtain ⟨hmem, -⟩ := (Registry.resolve_eq_some ha).1 hresolve
  obtain ⟨hid, hitems, -, -, -, -, htext, -⟩ := encodable_record.1 hs.encodable
  have htruthy := u.truthy
  rw [hinput] at htruthy htext
  rw [haction] at hid
  rw [← u.options] at hargs
  refine ⟨r.action, r.options.args, input, ?_, ?_, ?_, ?_, Json.truthy_str.1 htruthy, hargs,
    hs.typed.args, hid, hitems, htext input List.mem_cons_self⟩
  · rw [find?_stored (by decide), ← haction]
    rfl
  · rw [find?_stored (by decide)]
    rfl
  · rw [find?_stored (by decide), ← hinput]
    rfl
  · exact (Registry.resolve_eq_some ha).2 ⟨hmem, List.mem_cons_self⟩

end Recorded
end Run
end ClipActions
