import ClipActions.Proofs.Command.Parsing
import ClipActions.Proofs.Text.Splitting
import Mathlib.Data.List.Infix

/-!
Routing. The name of an action on its own stands for `run` and that name, behind any uses of the
option for the log. Where the router reads these as the grammar of the program does, the line is the
one with `run` in it; of an abbreviated option it does not know the value.
-/
namespace ClipActions.Command

variable {known line rest : List Text} {t u name : Text}

/-! Spellings of the option for the log. -/

/-- A use of the option for the log, as it is spelled. -/
inductive LogUse where
  /-- The option and its value are two tokens. -/
  | apart (lead value : Text)
  /-- An equals sign stands between them. -/
  | equated (lead value : Text)
  /-- The value stands right behind the letter. -/
  | clustered (value : Text)

namespace LogUse

/-- The beginnings of the long spelling that no other option has. -/
def Abbreviates (lead : Text) : Prop :=
  lead <+: Text.ofString "--log" ∧ ∀ p ∈ grammar.spellings, lead <+: p.1 → p.1 = "--log"

section

variable [Runtime]

instance (lead : Text) : Decidable (Abbreviates lead) := inferInstanceAs (Decidable (_ ∧ _))

end

theorem abbreviates_iff {lead : Text} :
    Abbreviates lead ↔ lead = "--l" ∨ lead = "--lo" ∨ lead = "--log" := by
  constructor
  · intro h
    have hmem : lead ∈ (Text.ofString "--log").inits := (List.mem_inits _ _).2 h.1
    revert h
    revert lead
    decide
  · rintro (rfl | rfl | rfl) <;> decide

/-- A use with a value that does not look like an option. -/
def Proper : LogUse → Prop
  | apart lead v => (lead = "-l" ∨ Abbreviates lead) ∧ v.head? ≠ some (.char '-')
  | equated lead v => Abbreviates lead ∧ v.head? ≠ some (.char '-')
  | clustered v => v ≠ [] ∧ v.head? ≠ some (.char '-')

instance : DecidablePred Proper
  | apart .. | equated .. | clustered _ => inferInstanceAs (Decidable (_ ∧ _))

def tokens : LogUse → List Text
  | apart lead v => [lead, v]
  | equated lead v => [lead ++ "=" ++ v]
  | clustered v => ["-l" ++ v]

/-- What is given to the option; an equals sign behind the letter does not count. -/
def value : LogUse → Text
  | apart _ v | equated _ v => v
  | clustered v => if v.head? = some (.char '=') then v.tail else v

def given (o : LogUse) : Given :=
  if o.value = Grammar.endOfOptions then .emptied else .text o.value

variable {o : LogUse} {lead v : Text}

theorem readToken_lead (hl : lead = "-l" ∨ Abbreviates lead) :
    ∃ name, grammar.readToken lead = .ok (.option ⟨logFlag, name, none⟩) := by
  rw [abbreviates_iff] at hl
  rcases hl with rfl | rfl | rfl | rfl <;> exact ⟨_, rfl⟩

theorem readToken_equated (hl : Abbreviates lead) (v : Text) :
    grammar.readToken (lead ++ "=" ++ v) = .ok (.option ⟨logFlag, "--log", some v⟩) := by
  rcases abbreviates_iff.1 hl with rfl | rfl | rfl <;> rfl

theorem readToken_clustered (hv : v ≠ []) :
    grammar.readToken ("-l" ++ v) = .ok (.option ⟨logFlag, "-l", some (clustered v).value⟩) := by
  obtain ⟨c, v, rfl⟩ := List.exists_cons_of_ne_nil hv
  by_cases hc : c = .char '='
  · subst hc
    rfl
  · have hvalue : (clustered (c :: v)).value = c :: v := if_neg (by simpa using hc)
    have hcut : Text.cut (.char '=') ("-l" ++ c :: v) =
        (.char '-' :: .char 'l' :: c :: (Text.cut (.char '=') v).1,
          (Text.cut (.char '=') v).2) := by
      simp [Text.cut, Text.ofString, hc]
    -- An equals sign further on stands behind a text that is no option.
    have hequals : grammar.withEquals? ("-l" ++ c :: v) = none := by
      rw [Grammar.withEquals?, hcut]
      cases (Text.cut (.char '=') v).2 <;> rfl
    have hdash : ("-l" ++ c :: v : Text).head? = some (.char '-') := rfl
    have hflag : grammar.flag? ("-l" ++ c :: v) = none := rfl
    have hlong : ("-l" ++ c :: v).length ≠ 1 := Nat.succ_succ_ne_one _
    rw [hvalue, Grammar.readToken, if_neg (not_not_intro hdash), hflag]
    dsimp only
    rw [if_neg hlong, hequals]
    rfl

/-- How the tokens of a use are read, and that it gives its value to the option and nothing else. -/
structure Read (o : LogUse) (read : List Token) : Prop where
  readTokens (more : List Text) :
    grammar.readTokens (o.tokens ++ more) = (read ++ ·) <$> grammar.readTokens more
  matchTokens (slots : List Slot) (more : List Token) :
    matchTokens grammar slots (read ++ more) =
      (fun p => (⟨[.flag logFlag o.given], []⟩ ++ p.1, p.2)) <$> matchTokens grammar slots more

theorem Read.of_joined {token name : Text} (htoken : o.tokens = [token])
    (hne : token ≠ Grammar.endOfOptions)
    (hr : grammar.readToken token = .ok (.option ⟨logFlag, name, some o.value⟩)) :
    o.Read [⟨token, .option ⟨logFlag, name, some o.value⟩⟩] where
  readTokens more := by
    rw [htoken, List.singleton_append, Grammar.readTokens_cons hne, hr]
    cases grammar.readTokens more <;> rfl
  matchTokens slots more := by
    have htake : takeToken grammar ⟨token, .option ⟨logFlag, name, some o.value⟩⟩ more =
        .ok (⟨[.flag logFlag o.given], []⟩, 0) := by
      simp only [takeToken, openToken, openOption]
      rw [openJoined.eq_def, if_pos (by decide)]
      rfl
    exact matchTokens_taken rfl htake

theorem exists_read (ho : o.Proper) : ∃ read, o.Read read := by
  cases o with
  | apart lead v =>
    obtain ⟨name, hname⟩ := readToken_lead ho.1
    have hlead : lead ≠ Grammar.endOfOptions := by
      rintro rfl
      cases hname
    refine ⟨[⟨lead, .option ⟨logFlag, name, none⟩⟩, ⟨v, .argument⟩], fun more => ?_,
      fun slots more => ?_⟩
    · change grammar.readTokens (lead :: v :: more) = _
      rw [Grammar.readTokens_cons hlead, hname, Grammar.readTokens_argument ho.2]
      cases grammar.readTokens more <;> rfl
    · have htake : takeToken grammar ⟨lead, .option ⟨logFlag, name, none⟩⟩
          (⟨v, .argument⟩ :: more) = .ok (⟨[.flag logFlag (apart lead v).given], []⟩, 1) := rfl
      exact matchTokens_taken rfl htake
  | equated lead v =>
    refine ⟨_, .of_joined rfl ?_ (readToken_equated ho.1 v)⟩
    rcases abbreviates_iff.1 ho.1 with rfl | rfl | rfl <;> exact nofun
  | clustered v => exact ⟨_, .of_joined rfl nofun (readToken_clustered ho.1)⟩

end LogUse

def spell (uses : List LogUse) : List Text := uses.flatMap LogUse.tokens

/-- The log that uses lead to: the last one counts. -/
def logOf (uses : List LogUse) : Option (Option Text) :=
  uses.getLast?.map fun o => if o.value = Grammar.endOfOptions then none else some o.value

theorem take_use {o : LogUse} (ho : o.Proper) (line : List Text) :
    grammar.take (o.tokens ++ line) =
      (⟨[.flag logFlag o.given], []⟩ ++ ·) <$> grammar.take line := by
  obtain ⟨read, hread⟩ := LogUse.exists_read ho
  unfold Grammar.take
  rw [hread.readTokens line]
  cases grammar.readTokens line with
  | error f => rfl
  | ok more =>
    have hmatch := hread.matchTokens grammar.slots more
    change (matchTokens grammar grammar.slots (read ++ more) >>= _) =
      _ <$> (matchTokens grammar grammar.slots more >>= _)
    rw [hmatch]
    cases matchTokens grammar grammar.slots more with
    | error s => rfl
    | ok p =>
      obtain ⟨taken, left⟩ := p
      simp only [Functor.map, Except.map, bind, Except.bind]
      split <;> rfl

theorem take_spelled {uses : List LogUse} (hu : ∀ o ∈ uses, o.Proper) (line : List Text) :
    grammar.take (spell uses ++ line) =
      (⟨uses.map fun o => .flag logFlag o.given, []⟩ ++ ·) <$> grammar.take line := by
  induction uses with
  | nil =>
    change grammar.take line = _
    cases grammar.take line <;> rfl
  | cons o uses ih =>
    obtain ⟨ho, hu⟩ := List.forall_mem_cons.1 hu
    rw [spell, List.flatMap_cons, List.append_assoc, take_use ho]
    change _ <$> grammar.take (spell uses ++ line) = _
    rw [ih hu]
    cases grammar.take line <;> rfl

/-- What is bound where uses of the option stand before a command. -/
def spelledBindings (uses : List LogUse) (line : List Text) : Bindings :=
  uses.map (fun o => .flag logFlag o.given) ++ [.slot commandSlot line]

theorem values_spelledBindings (uses : List LogUse) (line : List Text) :
    (spelledBindings uses line).values commandSlot = line := by
  induction uses with
  | nil => rfl
  | cons o uses ih => exact ih

theorem text?_spelledBindings (uses : List LogUse) (line : List Text) :
    (spelledBindings uses line).text? logFlag = logOf uses := by
  rcases uses.eq_nil_or_concat' with rfl | ⟨uses, o, rfl⟩
  · rfl
  · have hgiven : (spelledBindings (uses ++ [o]) line).given? logFlag = some o.given := by
      simp [Bindings.given?, spelledBindings]
    rw [Bindings.text?, hgiven, logOf, List.getLast?_append_cons, List.getLast?_singleton,
      LogUse.given, Option.map_some]
    by_cases hv : o.value = Grammar.endOfOptions
    · rw [if_pos hv, if_pos hv]
    · rw [if_neg hv, if_neg hv]

/-- Uses of the option before a command give the place of the log and nothing else. -/
theorem parse_spelled {uses : List LogUse} (hu : ∀ o ∈ uses, o.Proper)
    (hn : name.head? ≠ some (.char '-')) (rest : List Text) :
    Line.parse (spell uses ++ name :: rest) =
      (fun line => { line with log := logOf uses }) <$> Line.parse (name :: rest) := by
  have htake := take_spelled hu (name :: rest)
  rw [take_command hn] at htake
  rw [parse_command hn]
  cases hr : grammar.readTokens rest with
  | error f =>
    rw [hr] at htake
    exact parse_of_take_error htake
  | ok read =>
    rw [hr] at htake
    change grammar.take _ = .ok ⟨spelledBindings uses (name :: rest), []⟩ at htake
    rw [parse_of_take htake (values_spelledBindings uses _), text?_spelledBindings]
    exact commandLine_eq _ name rest

/-! Routing. -/

theorem not_isLogOption (ht : t.head? ≠ some (.char '-')) : isLogOption t = false := by
  rw [isLogOption, List.contains_eq_mem, decide_eq_false_iff_not]
  intro hm
  have hall : ∀ s ∈ logFlag.names, s.head? = some (.char '-') := by decide
  exact ht (hall t hm)

theorem route_value (ht : isLogOption t = true) (value : Text) (line : List Text) :
    route known (t :: value :: line) = t :: value :: route known line := by
  rw [route, if_pos ht]

theorem route_option (ht : isLogOption t = false) (hd : t.head? = some (.char '-'))
    (line : List Text) : route known (t :: line) = t :: route known line := by
  cases line with
  | nil => simp [route, hd]
  | cons u line => rw [route, if_neg (by simp [ht]), if_pos hd]

theorem route_known (ht : t.head? ≠ some (.char '-')) (hk : t ∈ known) (line : List Text) :
    route known (t :: line) = t :: line := by
  have hlog := not_isLogOption ht
  cases line <;> simp [route, ht, hk, hlog]

theorem route_unknown (ht : t.head? ≠ some (.char '-')) (hk : t ∉ known) (line : List Text) :
    route known (t :: line) = Form.run.name :: t :: line := by
  have hlog := not_isLogOption ht
  cases line <;> simp [route, ht, hk, hlog]

/-- A line is left as it is, or `run` is put into it in one place. -/
theorem route_inserts (known line : List Text) : route known line = line ∨
    ∃ front back, line = front ++ back ∧ route known line = front ++ Form.run.name :: back := by
  fun_induction route known line with
  | case1 => exact .inl rfl
  | case2 t h => exact .inl rfl
  | case3 t h => exact .inr ⟨[], [t], rfl, rfl⟩
  | case4 t u rest h ih =>
    rcases ih with ih | ⟨front, back, rfl, ih⟩
    · exact .inl (by rw [ih])
    · exact .inr ⟨t :: u :: front, back, rfl, by rw [ih]; rfl⟩
  | case5 t u rest h hd ih =>
    rcases ih with ih | ⟨front, back, he, ih⟩
    · exact .inl (by rw [ih])
    · exact .inr ⟨t :: front, back, by rw [he]; rfl, by rw [ih]; rfl⟩
  | case6 t u rest h hd hk => exact .inl rfl
  | case7 t u rest h hd hk => exact .inr ⟨[], t :: u :: rest, rfl, rfl⟩

/-- What has been routed stays as it is. -/
theorem route_route (hk : Form.run.name ∈ known) (line : List Text) :
    route known (route known line) = route known line := by
  have hrun : ∀ line, route known (Form.run.name :: line) = Form.run.name :: line :=
    route_known (by decide) hk
  fun_induction route known line with
  | case1 => rfl
  | case2 t h => rw [route, if_pos h]
  | case3 t h => exact hrun _
  | case4 t u rest h ih => rw [route_value h, ih]
  | case5 t u rest h hd ih => rw [route_option (by simpa using h) hd, ih]
  | case6 t u rest h hd hk => exact route_known hd (by simpa using hk) _
  | case7 t u rest h hd hk => exact hrun _

/-- A use whose value the router knows: it stands in the same token, or behind a full spelling. -/
def LogUse.Full : LogUse → Prop
  | .apart lead _ => isLogOption lead = true
  | _ => True

instance : DecidablePred LogUse.Full
  | .apart lead _ => inferInstanceAs (Decidable (isLogOption lead = true))
  | .equated .. | .clustered _ => .isTrue trivial

structure Strange (name : Text) : Prop where
  argument : name.head? ≠ some (.char '-')
  unknown : name ∉ Form.known

theorem route_use {o : LogUse} (ho : o.Proper) (hf : o.Full) (line : List Text) :
    route known (o.tokens ++ line) = o.tokens ++ route known line := by
  cases o with
  | apart lead v => exact route_value hf v line
  | equated lead v =>
    refine route_option ?_ ?_ line
    all_goals rcases LogUse.abbreviates_iff.1 ho.1 with rfl | rfl | rfl <;> rfl
  | clustered v =>
    obtain ⟨c, v, rfl⟩ := List.exists_cons_of_ne_nil ho.1
    exact route_option rfl rfl line

theorem spell_cons (o : LogUse) (uses : List LogUse) : spell (o :: uses) = o.tokens ++ spell uses :=
  List.flatMap_cons

theorem route_spelled {uses : List LogUse} (hu : ∀ o ∈ uses, o.Proper) (hf : ∀ o ∈ uses, o.Full)
    (line : List Text) : route known (spell uses ++ line) = spell uses ++ route known line := by
  induction uses with
  | nil => rfl
  | cons o uses ih =>
    obtain ⟨ho, hu⟩ := List.forall_mem_cons.1 hu
    obtain ⟨hfo, hf⟩ := List.forall_mem_cons.1 hf
    rw [spell_cons, List.append_assoc, List.append_assoc, route_use ho hfo, ih hu hf]

/-- The value behind an abbreviated spelling is taken for the command. -/
theorem route_abbreviated {uses : List LogUse} (hu : ∀ o ∈ uses, o.Proper)
    (hf : ∃ o ∈ uses, ¬ o.Full) (hn : Strange name) (rest : List Text) :
    ∃ uses' name' rest', (∀ o ∈ uses', o.Proper) ∧ Strange name' ∧
      route Form.known (spell uses ++ name :: rest) = spell uses' ++ name' :: rest' := by
  induction uses with
  | nil => exact absurd hf (by simp)
  | cons o uses ih =>
    obtain ⟨ho, hu'⟩ := List.forall_mem_cons.1 hu
    by_cases hfo : o.Full
    · have hrest : ∃ o ∈ uses, ¬ o.Full := by simpa [hfo] using hf
      obtain ⟨uses', name', rest', huses, hname, hroute⟩ := ih hu' hrest
      refine ⟨o :: uses', name', rest', List.forall_mem_cons.2 ⟨ho, huses⟩, hname, ?_⟩
      rw [spell_cons, List.append_assoc, route_use ho hfo, hroute, spell_cons, List.append_assoc]
    · cases o with
      | equated lead v => exact absurd trivial hfo
      | clustered v => exact absurd trivial hfo
      | apart lead v =>
        have hlead : route Form.known (lead :: v :: (spell uses ++ name :: rest)) =
            lead :: route Form.known (v :: (spell uses ++ name :: rest)) := by
          refine route_option (by simpa [LogUse.Full] using hfo) ?_ _
          have hl := ho.1
          rw [LogUse.abbreviates_iff] at hl
          rcases hl with rfl | rfl | rfl | rfl <;> rfl
        -- Routing ends at the value: a known one stays, and before another one `run` is put, which
        -- becomes the value, so that the other one is left for a command.
        by_cases hv : v ∈ Form.known
        · refine ⟨.apart lead v :: uses, name, rest, hu, hn, ?_⟩
          exact hlead.trans (by rw [route_known ho.2 hv]; rfl)
        · refine ⟨[.apart lead Form.run.name], v, spell uses ++ name :: rest, ?_, ⟨ho.2, hv⟩, ?_⟩
          · exact List.forall_mem_singleton.2 ⟨ho.1, by decide⟩
          · exact hlead.trans (by rw [route_unknown ho.2 hv]; rfl)

theorem Strange.ofName? (hn : Strange name) : Form.ofName? name = none := by
  refine List.find?_eq_none.2 fun f hf hm => hn.unknown ?_
  exact List.mem_flatMap.2 ⟨f, hf, by simpa using hm⟩

theorem Strange.rejected {uses : List LogUse} (hu : ∀ o ∈ uses, o.Proper) (hn : Strange name)
    (rest : List Text) : ∃ p f, Line.parse (spell uses ++ name :: rest) = .error (.fault p f) := by
  rw [parse_spelled hu hn.argument, parse_command hn.argument]
  cases grammar.readTokens rest with
  | error f => exact ⟨_, _, rfl⟩
  | ok read =>
    have hline : commandLine none name rest =
        .error (.fault program (.unknownCommand commandSlot.name name Form.known)) := by
      rw [commandLine, ofTokens, hn.ofName?]
      rfl
    have hmap : (fun line : Line => { line with log := logOf uses }) <$>
        commandLine none name rest =
        .error (.fault program (.unknownCommand commandSlot.name name Form.known)) := by
      rw [hline]
      rfl
    exact ⟨_, _, hmap⟩

end ClipActions.Command
