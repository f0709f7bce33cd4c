import ClipActions.Gate
import ClipActions.Proofs.Job.Hereditary
import ClipActions.Proofs.Log.Delivery

/-!
What the gate decides, and what it leaves behind: the log event of its decision, and whatever the
question leaves behind if one is put.
-/
namespace ClipActions.Gate

open Host (Frame)

open Job (Keeps Halts Hereditary)

variable {P : Effect → Prop} {R : Host → Host → Prop} {S : ∀ {α : Type}, Job α → Prop}
  {config : Json} {p : Provider} {request : Request} {h : Host}

def safeMode (config : Json) : Checked Json := do
  (← config.get "settings").orEmpty.get "safe_mode"

def question (p : Provider) : Text :=
  "Safe mode: send clipboard to cloud provider \"" ++ label p ++ "\"?"

def IsDecision (e : Effect) : Prop := e.Logs "safe_mode_decision"

section

variable [Runtime]

/-- The gate judges only calls to cloud providers, and only in safe mode. -/
theorem result_pass (config : Json) (request : Request) (h : Host) :
    (pass config request).result h = match safeMode config with
      | .error m => (.error (.failed (.misuse m)), h)
      | .ok v => if v.truthy then
          match Provider.ofConfig (.ofJson config) with
          | .error m => (.error (.failed (.misuse m)), h)
          | .ok p => if Provider.isCloud p.type p.endpoint then (judge p request).result h
              else (.ok (), h)
        else (.ok (), h) := by
  unfold pass safeMode
  cases hs : config.get "settings" with
  | error m => rfl
  | ok settings =>
    rw [Job.result_bind_ok (Job.result_check_ok settings h)]
    simp only [bind, Except.bind]
    cases hv : settings.orEmpty.get "safe_mode" with
    | error m => rfl
    | ok v =>
      show (do
        if v.truthy then
          let p ← Job.check (Provider.ofConfig (.ofJson config))
          if Provider.isCloud p.type p.endpoint then judge p request : Job Unit).result h = _
      dsimp only
      split
      · cases hp : Provider.ofConfig (.ofJson config) with
        | error m => rfl
        | ok p =>
          rw [Job.result_bind_ok (Job.result_check_ok p h)]
          dsimp only
          split
          · rfl
          · rfl
      · rfl

theorem logDecision_inherits (f : Hereditary P S)
    (hp : ∀ e : Effect, e.Notes "safe_mode_decision" → P e) {level : Log.Level}
    {fields : List (Text × Data)}
    (hf : decide (∀ n ∈ fields.map Prod.fst, n ≠ "ts" ∧ n ≠ "event") = true)
    (hs : decide (∀ n ∈ fields.map Prod.fst, n ≠ "error" ∧ n ≠ "message") = true) :
    S (logDecision level fields) :=
  f.tell ⟨(by decide : Text.OfMarks "safe_mode_decision"), Log.Event.fields_of_names hf⟩
    (Log.Event.silent_of_names hs) hp

theorem judge_inherits (f : Hereditary P S)
    (hp : ∀ e : Effect, e.Notes "safe_mode_decision" → P e)
    (ha : ∀ p, S (request.ask (question p))) (p : Provider) : S (judge p request) := by
  unfold judge
  dsimp only
  split
  · exact f.bind (logDecision_inherits f hp rfl rfl) fun _ => f.fail _
  split
  · exact logDecision_inherits f hp rfl rfl
  · refine f.bind (ha p) fun agreed => ?_
    split
    · exact logDecision_inherits f hp rfl rfl
    · exact f.bind (logDecision_inherits f hp rfl rfl) fun _ => f.fail _

/-- The gate is made of its decision and of the question. -/
theorem pass_inherits (f : Hereditary P S) (hp : ∀ e : Effect, e.Notes "safe_mode_decision" → P e)
    (ha : ∀ p, S (request.ask (question p))) : S (pass config request) := by
  refine f.bind (f.check _) fun settings => f.bind (f.check _) fun safe => ?_
  split
  · refine f.bind (f.check _) fun p => ?_
    split
    · exact judge_inherits f hp ha p
    · exact f.pure _
  · exact f.pure _

/-- What the gate leaves behind where nobody is asked. -/
structure Decided (h k : Host) : Prop where
  extended : Host.Extends IsDecision h k
  terminal : k.terminal = h.terminal

theorem result_logDecision (level : Log.Level) (fields : List (Text × Data)) (h : Host)
    (hf : decide (∀ n ∈ fields.map Prod.fst, n ≠ "ts" ∧ n ≠ "event") = true)
    (he : decide (∀ n ∈ fields.map Prod.fst, n ≠ "error" ∧ n ≠ "message") = true)
    (hs : (fields.all fun f => decide (f.2.nesting ≤ 1)) = true) :
    ∃ k, (logDecision level fields).result h = (.ok (), k) ∧ Decided h k := by
  refine ⟨((logDecision level fields).result h).2, ?_, ?_, ?_⟩
  · exact Prod.ext (Job.log_ok (.of_nestings hs) h) rfl
  · exact logDecision_inherits (Host.frame_extends _).hereditary (fun _ hx => hx.logs) hf he h
  · obtain ⟨disk, target, hk⟩ := Job.host_log
      (e := { name := "safe_mode_decision", level, fields }) (.of_nestings hs) h
    rw [logDecision, hk]

theorem judge_daemon (p : Provider) (yes : Bool) (h : Host) : ∃ k, Decided h k ∧ ∀ ask,
    (judge p { yes, daemon := true, ask }).result h =
      (.error (.failed (.blocked (label p))), k) := by
  obtain ⟨k, hk, hd⟩ := result_logDecision Log.Level.warning
    [("decision", .str "blocked_daemon"), ("provider", .str (label p)),
      ("daemon_mode", .bool true), ("yes", .bool yes)] h rfl rfl rfl
  refine ⟨k, hd, fun ask => ?_⟩
  unfold judge
  dsimp only
  rw [if_pos rfl, Job.result_bind_ok hk]
  rfl

theorem judge_yes (p : Provider) (h : Host) : ∃ k, Decided h k ∧ ∀ ask,
    (judge p { yes := true, ask }).result h = (.ok (), k) := by
  obtain ⟨k, hk, hd⟩ := result_logDecision Log.Level.info
    [("decision", .str "allowed_by_flag"), ("provider", .str (label p)), ("yes", .bool true)] h
    rfl rfl rfl
  exact ⟨k, hd, fun ask => hk⟩

/-- Where neither flag decides, one question does. -/
theorem judge_ask (p : Provider) (ask : Asker) (h : Host) :
    ∃ k, Decided ((ask (question p)).result h).2 k ∧
      (judge p { ask }).result h = (match ((ask (question p)).result h).1 with
        | .ok true => .ok ()
        | .ok false => .error (.failed (.declined (label p)))
        | .error e => .error e, k) := by
  have hjudge : (judge p { ask }).result h =
      (do
        if ← ask (question p) then
          logDecision Log.Level.info [("decision", .str "confirmed"), ("provider", .str (label p))]
        else
          logDecision Log.Level.warning
            [("decision", .str "declined"), ("provider", .str (label p))]
          Job.fail (.declined (label p)) : Job Unit).result h := rfl
  rw [hjudge]
  cases ha : (ask (question p)).result h with
  | mk answer k =>
    cases answer with
    | error e =>
      rw [Job.result_bind_error ha]
      exact ⟨k, ⟨(Host.frame_extends _).refl k, rfl⟩, rfl⟩
    | ok agreed =>
      rw [Job.result_bind_ok ha]
      cases agreed with
      | true =>
        obtain ⟨m, hm, hd⟩ := result_logDecision Log.Level.info
          [("decision", .str "confirmed"), ("provider", .str (label p))] k rfl rfl rfl
        exact ⟨m, hd, hm⟩
      | false =>
        obtain ⟨m, hm, hd⟩ := result_logDecision Log.Level.warning
          [("decision", .str "declined"), ("provider", .str (label p))] k rfl rfl rfl
        refine ⟨m, hd, ?_⟩
        rw [if_neg (by simp), Job.result_bind_ok hm]
        rfl

end

/-! Where the gate fails, the failure has a kind to be called by. -/

def Named (e : Halt) : Prop := e.kind ≠ []

theorem named_misuse (m : Misuse) : Named (.failed (.misuse m)) := by
  cases m <;> exact fun h => by cases h

section

variable [Runtime]

theorem pass_halts (ha : ∀ m, Halts Named (request.ask m)) :
    Halts Named (pass config request) := by
  have hlog : ∀ level fields,
      (fields.all fun f : Text × Data => decide (f.2.nesting ≤ 1)) = true →
      Halts Named (logDecision level fields) := fun level fields hs =>
    Job.log_halts (.of_nestings hs) _
  have hjudge : ∀ p, Halts Named (judge p request) := by
    intro p
    unfold judge
    dsimp only
    split
    · exact (hlog _ _ rfl).bind fun _ => .fail fun h => by cases h
    split
    · exact hlog _ _ rfl
    · refine (ha _).bind fun agreed => ?_
      split
      · exact hlog _ _ rfl
      · exact (hlog _ _ rfl).bind fun _ => .fail fun h => by cases h
  intro h e he
  rw [result_pass] at he
  split at he
  · cases he
    exact named_misuse _
  · split at he
    · split at he
      · cases he
        exact named_misuse _
      · split at he
        · exact hjudge _ h e he
        · cases he
    · cases he

end

/-! The terminal. -/

def IsTalk : Effect → Prop
  | .printed _ | .complained _ | .asked _ => True
  | _ => False

/-- Somebody is asked, and nothing but talk comes of it. -/
structure Talks (ask : Asker) : Prop where
  keeps : ∀ m, Keeps (Host.Extends IsTalk) (ask m)
  named : ∀ m, Halts Named (ask m)

theorem Talks.extends {ask : Asker} (hask : Talks ask) (m : Text) :
    Keeps (Host.Extends fun _ => True) (ask m) := fun h => (hask.keeps m h).mono fun _ _ => trivial

section

variable [Runtime]

/-- Asking at the terminal is to put the question and to read a line. -/
theorem askTerminal_inherits (f : Hereditary P S) (hr : S Job.readLine) {m : Text}
    (hp : P (.complained (m ++ " [y/N] "))) : S (askTerminal m) :=
  f.bind (f.emit hp) fun _ => f.bind hr fun _ => f.pure _

end

theorem askTerminal_keeps (f : Frame P R) (hp : ∀ e, IsTalk e → P e) (m : Text) :
    Keeps R (askTerminal m) := askTerminal_inherits f.hereditary f.readLine (hp _ trivial)

theorem askTerminal_talks : Talks askTerminal where
  keeps := askTerminal_keeps (Host.frame_extends _) fun _ he => he
  named _ _ _ he := by cases he

def firstLine (t : Text) : Text := t.takeWhile (· ≠ .char '\n')

private theorem trim_append_blank {s : Symbol} (hs : s.isBlank = true) (t : Text) :
    Text.trim (t ++ [s]) = t.trim := by
  unfold Text.trim Text.trimBy Text.dropTail
  rw [List.dropWhile_append]
  split
  · rename_i he
    rw [List.isEmpty_iff.1 he]
    simp [hs]
  · simp [hs]

private theorem rest_take (t : Text) :
    (t.drop (firstLine t).length).take 1 = [] ∨
      (t.drop (firstLine t).length).take 1 = [.char '\n'] := by
  unfold firstLine
  induction t with
  | nil => exact .inl rfl
  | cons s t ih =>
    by_cases hs : s = .char '\n'
    · subst hs
      exact .inr rfl
    · simpa [List.takeWhile_cons, hs] using ih

/-- The terminal agrees by a first line that says `y` in either case. -/
theorem result_askTerminal (m : Text) (h : Host) : ((askTerminal m).result h).1 =
    .ok (decide ((firstLine h.terminal).trim = "y") ||
      decide ((firstLine h.terminal).trim = "Y")) := by
  have hline : ((askTerminal m).result h).1 =
      .ok (decide (Text.trim (firstLine h.terminal ++
          (h.terminal.drop (firstLine h.terminal).length).take 1) = "y") ||
        decide (Text.trim (firstLine h.terminal ++
          (h.terminal.drop (firstLine h.terminal).length).take 1) = "Y")) := rfl
  rw [hline]
  rcases rest_take h.terminal with hr | hr
  · rw [hr, List.append_nil]
  · rw [hr, trim_append_blank (by decide)]

end ClipActions.Gate
