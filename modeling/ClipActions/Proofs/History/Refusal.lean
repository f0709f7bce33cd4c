import ClipActions.Proofs.Disk.Faults
import ClipActions.Proofs.History.Append
import ClipActions.Proofs.Job.Halts

/-!
What keeps a record from being stored. It is nested too deeply to be written, or the disk has a fault;
and a fault is told of as one kind of failure.
-/
namespace ClipActions.History

open Job (Halts)

variable {file : Path} {record : Json.Fields} {h : Host}

theorem fieldNesting_stamped_eq (hid : record.find? "id" = none)
    (ht : record.find? "timestamp" = none) (id : Text) (now : Instant) :
    Json.fieldNesting (stamped record id now) = Json.fieldNesting record := by
  refine Nat.le_antisymm (fieldNesting_stamped record id now)
    (Nat.le_trans (Json.le_fieldNesting_put _ hid) (Json.le_fieldNesting_put _ ?_))
  rw [Json.Fields.find?_put, if_neg (by decide), ht]

/-- A line is kept from the file by a fault alone. -/
theorem writeLine_halts (file : Path) (text : Text) :
    Halts (fun e => ∃ f : Failure, e = .failed f ∧ f.IsFault) (writeLine file text) := by
  have hmade : Halts (fun e => ∃ f : Failure, e = .failed f ∧ f.IsFault)
      (Job.makeDirectory file.parent) :=
    .change fun d f hf => ⟨f, rfl, Disk.makeDirectory_fault d _ hf⟩
  have happended : ∀ bytes, Halts (fun e => ∃ f : Failure, e = .failed f ∧ f.IsFault)
      (Job.append file bytes) :=
    fun bytes => .change fun d f hf => ⟨f, rfl, Disk.append_fault d _ _ hf⟩
  refine hmade.bind fun _ => ?_
  split
  · exact happended _
  · refine (happended _).bind fun _ => ?_
    split
    · exact .fail ⟨_, rfl, trivial⟩
    · exact .pure _

variable [Runtime]

/-- What keeps a record without an identifier and a time from being stored: that it is nested too
deeply, or a fault. -/
theorem append_ends (hid : record.find? "id" = none) (ht : record.find? "timestamp" = none)
    (file : Path) (h : Host) :
    (((append file (Value.ofJsonFields record)).result h).1 = .error (.failed .tooDeepToWrite) ∧
      Runtime.jsonDepth ≤ Json.fieldNesting record) ∨
    (Json.fieldNesting record < Runtime.jsonDepth ∧
      ((∃ stored, ((append file (Value.ofJsonFields record)).result h).1 = .ok stored) ∨
        ∃ reason, ((append file (Value.ofJsonFields record)).result h).1 =
          .error (.failed (.historyWrite file.text reason)))) := by
  obtain ⟨r, drawn, hr, hcomplete⟩ := result_complete_record record h
  obtain ⟨id, -, rfl⟩ := hr.stamped hid ht
  have hstored : (append file (Value.ofJsonFields record)).result h = (do
      Job.handle (store file (Value.ofJsonFields (stamped record id h.now)))
        fun f => Job.fail (unstored file f)
      return Value.ofJsonFields (stamped record id h.now)).result { h with drawn } := by
    unfold append
    rw [Job.result_bind_ok hcomplete]
  rw [hstored]
  unfold store
  rw [line_ofJsonFields, fieldNesting_stamped_eq hid ht]
  by_cases hdeep : Runtime.jsonDepth ≤ Json.fieldNesting record
  · rw [if_pos hdeep]
    exact .inl ⟨rfl, hdeep⟩
  · rw [if_neg hdeep]
    refine .inr ⟨Nat.not_le.1 hdeep, ?_⟩
    dsimp only
    have hhalts := writeLine_halts file
      ((Json.obj (stamped record id h.now)).write ++ "\n") { h with drawn }
    rw [Job.result_bind, Job.result_handle]
    generalize (writeLine file _).result _ = written at hhalts
    obtain ⟨result, k⟩ := written
    cases result with
    | ok u => exact .inl ⟨_, rfl⟩
    | error e =>
      obtain ⟨f, rfl, hf⟩ := hhalts e rfl
      refine .inr ⟨f.message, ?_⟩
      cases f with
      | tooDeepToWrite => cases hf
      | _ => rfl

/-- Nothing is stored in a directory that cannot be made. -/
theorem append_unmade {f : Failure} (hf : (h.disk.makeDirectory file.parent).2 = some f)
    (record : Json.Fields) :
    ∃ e k, (append file (Value.ofJsonFields record)).result h = (.error e, k) := by
  obtain ⟨r, drawn, -, hcomplete⟩ := result_complete_record record h
  have hmade : ∀ text, ∃ k, (writeLine file text).result { h with drawn } = (.error (.failed f), k) := by
    intro text
    have hchange : (Job.makeDirectory file.parent).result { h with drawn } =
        (.error (.failed f), { h with drawn, disk := (h.disk.makeDirectory file.parent).1 }) := by
      unfold Job.makeDirectory
      rw [Job.result_change, hf]
    exact ⟨_, Job.result_bind_error hchange _⟩
  have hstore : ∃ f' k, (store file (Value.ofJsonFields r)).result { h with drawn } =
      (.error (.failed f'), k) := by
    unfold store
    split
    · obtain ⟨k, hk⟩ := hmade _
      exact ⟨f, k, hk⟩
    · exact ⟨_, _, rfl⟩
  obtain ⟨f', k, hk⟩ := hstore
  refine ⟨.failed (unstored file f'), k, ?_⟩
  unfold append
  rw [Job.result_bind_ok hcomplete, Job.result_bind, Job.result_handle, hk]
  rfl

end ClipActions.History
