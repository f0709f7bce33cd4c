import ClipActions.Command
import ClipActions.Proofs.Outcome
import Mathlib.Data.List.TakeWhile

/-! Matching and reading a command line, one part of it at a time. -/
namespace ClipActions.Command

variable {g : Grammar} {slots waiting : List Slot} {bindings : List Binding} {n : Nat}
  {t : Token} {tokens rest plain : List Token}

theorem Taken.append_assoc (a b c : Taken) : a ++ b ++ c = a ++ (b ++ c) := by
  change Taken.append (Taken.append a b) c = Taken.append a (Taken.append b c)
  simp [Taken.append]

theorem isPlain_of_isOption (ho : t.reading.isOption = true) : Place.isPlain t = false := by
  rw [Place.isPlain, ho]
  rfl

theorem matchTokens_plain (hp : ∀ t ∈ tokens, Place.isPlain t = true)
    (hf : fill slots tokens = (bindings, waiting, n)) :
    matchTokens g slots tokens =
      .ok (⟨bindings, (tokens.drop n).map (·.text)⟩, waiting) := by
  have hnone : tokens.dropWhile Place.isPlain = [] := List.dropWhile_eq_nil_iff.2 hp
  rw [matchTokens]
  split
  · rw [hf]
  · rename_i t rest hrest
    rw [hnone] at hrest
    cases hrest

/-- Arguments and an option after them: the places take what they can first. -/
theorem matchTokens_chunk (hp : ∀ t ∈ plain, Place.isPlain t = true)
    (ho : t.reading.isOption = true)
    (hf : (if plain.isEmpty then ([], slots, 0) else fill slots (plain ++ t :: rest)) =
      (bindings, waiting, n)) :
    matchTokens g slots (plain ++ t :: rest) =
      if n = 0 then do
        let (taken, following) ← takeToken g t rest
        let (more, left) ← matchTokens g waiting (rest.drop following)
        return (⟨bindings, plain.map (·.text)⟩ ++ taken ++ more, left)
      else do
        let (more, left) ← matchTokens g waiting ((plain ++ t :: rest).drop n)
        return (⟨bindings, []⟩ ++ more, left) := by
  have hnot := isPlain_of_isOption ho
  have hdrop : (plain ++ t :: rest).dropWhile Place.isPlain = t :: rest := by
    rw [List.dropWhile_append_of_pos hp, List.dropWhile_cons_of_neg (by simp [hnot])]
  have htake : (plain ++ t :: rest).takeWhile Place.isPlain = plain := by
    rw [List.takeWhile_append_of_pos hp, List.takeWhile_cons_of_neg (by simp [hnot]),
      List.append_nil]
  rw [matchTokens]
  split
  · rename_i hnil
    rw [hdrop] at hnil
    cases hnil
  · rename_i u more hmore
    rw [hdrop] at hmore
    cases hmore
    rw [htake]
    split
    rename_i b w m hbwm
    rw [hf] at hbwm
    cases hbwm
    rfl

theorem takeToken_ok {taken : Taken} {following : Nat}
    (hm : takeToken g t rest = .ok (taken, following)) :
    ∃ opened bindings, openToken g t rest = .ok opened ∧
      opened.uses.mapM (Use.bind g) = .ok bindings ∧ taken = ⟨bindings, opened.extras⟩ ∧
      following = opened.following := by
  obtain ⟨opened, hopened, hm⟩ := Except.bind_eq_ok.1 hm
  obtain ⟨bindings, hbound, hm⟩ := Except.bind_eq_ok.1 hm
  cases hm
  exact ⟨opened, bindings, Except.mapError_eq_ok.1 hopened, hbound, rfl, rfl⟩

/-- What a match that succeeds has taken, where an option stands in the line. -/
theorem matchTokens_ok {taken : Taken} {left : List Slot}
    (hp : ∀ t ∈ plain, Place.isPlain t = true) (ho : t.reading.isOption = true)
    (hf : (if plain.isEmpty then ([], slots, 0) else fill slots (plain ++ t :: rest)) =
      (bindings, waiting, n))
    (hm : matchTokens g slots (plain ++ t :: rest) = .ok (taken, left)) :
    (n = 0 ∧ ∃ used following more, takeToken g t rest = .ok (used, following) ∧
      matchTokens g waiting (rest.drop following) = .ok (more, left) ∧
      taken = ⟨bindings, plain.map (·.text)⟩ ++ used ++ more) ∨
    (n ≠ 0 ∧ ∃ more, matchTokens g waiting ((plain ++ t :: rest).drop n) = .ok (more, left) ∧
      taken = ⟨bindings, []⟩ ++ more) := by
  rw [matchTokens_chunk hp ho hf] at hm
  by_cases hn : n = 0
  · rw [if_pos hn] at hm
    obtain ⟨⟨used, following⟩, hused, hm⟩ := Except.bind_eq_ok.1 hm
    obtain ⟨⟨more, _⟩, hmore, hm⟩ := Except.bind_eq_ok.1 hm
    cases hm
    exact .inl ⟨hn, used, following, more, hused, hmore, rfl⟩
  · rw [if_neg hn] at hm
    obtain ⟨⟨more, _⟩, hmore, hm⟩ := Except.bind_eq_ok.1 hm
    cases hm
    exact .inr ⟨hn, more, hmore, rfl⟩

theorem matchTokens_option (ho : t.reading.isOption = true) (rest : List Token) :
    matchTokens g slots (t :: rest) = do
      let (taken, following) ← takeToken g t rest
      let (more, left) ← matchTokens g slots (rest.drop following)
      return (taken ++ more, left) :=
  matchTokens_chunk (List.forall_mem_nil _) ho rfl

theorem matchTokens_taken {taken : Taken} {following : Nat} (ho : t.reading.isOption = true)
    (ht : takeToken g t rest = .ok (taken, following)) :
    matchTokens g slots (t :: rest) =
      (fun p => (taken ++ p.1, p.2)) <$> matchTokens g slots (rest.drop following) := by
  rw [matchTokens_option ho, ht]
  change (matchTokens g slots (rest.drop following) >>= _) = _
  cases matchTokens g slots (rest.drop following) <;> rfl

theorem matchTokens_stopped {s : Stop} (ho : t.reading.isOption = true)
    (ht : takeToken g t rest = .error s) : matchTokens g slots (t :: rest) = .error s := by
  rw [matchTokens_option ho, ht]
  rfl

theorem plain_or_option (tokens : List Token) : (∀ t ∈ tokens, Place.isPlain t = true) ∨
    ∃ plain t rest, tokens = plain ++ t :: rest ∧ (∀ t ∈ plain, Place.isPlain t = true) ∧
      t.reading.isOption = true := by
  induction tokens with
  | nil => exact .inl nofun
  | cons u tokens ih =>
    cases hu : u.reading.isOption with
    | true => exact .inr ⟨[], u, tokens, rfl, nofun, hu⟩
    | false =>
      have hplain : Place.isPlain u = true := by
        rw [Place.isPlain, hu]
        rfl
      rcases ih with hall | ⟨plain, t, rest, rfl, hp, ht⟩
      · exact .inl (List.forall_mem_cons.2 ⟨hplain, hall⟩)
      · exact .inr ⟨u :: plain, t, rest, rfl, List.forall_mem_cons.2 ⟨hplain, hp⟩, ht⟩

theorem length_rest_lt (plain : List Token) (t : Token) (rest : List Token) (n : Nat) :
    (rest.drop n).length < (plain ++ t :: rest).length := by
  rw [List.length_drop, List.length_append, List.length_cons]
  omega

/-- Matching follows a line from option to option. -/
theorem induction_options {P : List Token → Prop}
    (hplain : ∀ tokens, (∀ t ∈ tokens, Place.isPlain t = true) → P tokens)
    (hoption : ∀ plain t rest, (∀ t ∈ plain, Place.isPlain t = true) → t.reading.isOption = true →
      (∀ tokens, tokens.length < (plain ++ t :: rest).length → P tokens) → P (plain ++ t :: rest))
    (tokens : List Token) : P tokens := by
  induction hn : tokens.length using Nat.strong_induction_on generalizing tokens with
  | _ n ih =>
    rcases plain_or_option tokens with hp | ⟨plain, t, rest, rfl, hp, ho⟩
    · exact hplain tokens hp
    · exact hoption plain t rest hp ho fun tokens hlen => ih _ (hn ▸ hlen) tokens rfl

/-! Reading. -/
namespace Grammar

variable {text name : Text}

theorem readToken_argument (ht : text.head? ≠ some (.char '-')) :
    g.readToken text = .ok .argument := if_pos ht

theorem readTokens_cons (ht : text ≠ endOfOptions) (line : List Text) :
    g.readTokens (text :: line) = do
      let reading ← g.readToken text
      return ⟨text, reading⟩ :: (← g.readTokens line) := by
  rw [readTokens, if_neg ht]

theorem ne_endOfOptions (ht : text.head? ≠ some (.char '-')) : text ≠ endOfOptions := by
  rintro rfl
  exact ht rfl

theorem readTokens_argument (ht : text.head? ≠ some (.char '-')) (line : List Text) :
    g.readTokens (text :: line) = (⟨text, .argument⟩ :: ·) <$> g.readTokens line := by
  rw [readTokens_cons (ne_endOfOptions ht), readToken_argument ht]
  rfl

theorem readTokens_behind {line : List Text} (ht : text.head? ≠ some (.char '-'))
    (hr : g.readTokens line = .ok tokens) :
    g.readTokens (text :: line) = .ok (⟨text, .argument⟩ :: tokens) := by
  rw [readTokens_argument ht, hr]
  rfl

theorem readTokens_ok {line : List Text} (ht : text ≠ endOfOptions)
    (hr : g.readTokens (text :: line) = .ok tokens) :
    ∃ reading rest, g.readToken text = .ok reading ∧ g.readTokens line = .ok rest ∧
      tokens = ⟨text, reading⟩ :: rest := by
  rw [readTokens_cons ht] at hr
  obtain ⟨reading, hreading, hr⟩ := Except.bind_eq_ok.1 hr
  obtain ⟨rest, hrest, hr⟩ := Except.bind_eq_ok.1 hr
  cases hr
  exact ⟨reading, rest, hreading, hrest, rfl⟩

theorem map_text_of_readTokens {line : List Text} (hr : g.readTokens line = .ok tokens) :
    tokens.map (·.text) = line := by
  induction line generalizing tokens with
  | nil =>
    cases hr
    rfl
  | cons text line ih =>
    by_cases ht : text = endOfOptions
    · rw [readTokens, if_pos ht] at hr
      cases hr
      simp [Function.comp_def]
    · obtain ⟨reading, rest, -, hrest, rfl⟩ := readTokens_ok ht hr
      rw [List.map_cons, ih hrest]

end Grammar

/-! The whole command line. -/

/-- What follows a command is taken with it. -/
theorem matchTokens_command (text : Text) (rest : List Token) :
    matchTokens g [commandSlot] (⟨text, .argument⟩ :: rest) =
      .ok (⟨[.slot commandSlot (text :: rest.map (·.text))], []⟩, []) := by
  have hfill : fill [commandSlot] (⟨text, .argument⟩ :: rest) =
      ([.slot commandSlot (text :: rest.map (·.text))], [], rest.length + 1) := by
    simp [fill, commandSlot, Place.take?, Place.isTerminator, Place.values]
  rcases plain_or_option (⟨text, .argument⟩ :: rest) with hp | ⟨plain, t, more, he, hp, ho⟩
  · rw [matchTokens_plain hp hfill]
    simp
  · have hne : plain ≠ [] := by
      rintro rfl
      cases he
      cases ho
    have hif : (if plain.isEmpty then ([], [commandSlot], 0) else
        fill [commandSlot] (plain ++ t :: more)) =
        ([.slot commandSlot (text :: rest.map (·.text))], [], rest.length + 1) := by
      rw [if_neg (by simpa using hne), ← he, hfill]
    rw [he, matchTokens_chunk hp ho hif, if_neg (Nat.succ_ne_zero _), ← he,
      List.drop_eq_nil_of_le (by simp), matchTokens_plain (List.forall_mem_nil _) rfl]
    rfl

theorem take_of_match {line : List Text} {taken : Taken} (hr : g.readTokens line = .ok tokens)
    (hm : matchTokens g g.slots tokens = .ok (taken, [])) : g.take line = .ok taken := by
  unfold Grammar.take
  rw [hr]
  change (matchTokens g g.slots tokens >>= _) = _
  rw [hm]
  rfl

theorem take_of_stop {line : List Text} {s : Stop} (hr : g.readTokens line = .ok tokens)
    (hm : matchTokens g g.slots tokens = .error s) : g.take line = .error s := by
  unfold Grammar.take
  rw [hr]
  change (matchTokens g g.slots tokens >>= _) = _
  rw [hm]
  rfl

theorem take_of_fault {line : List Text} {f : Fault} (hr : g.readTokens line = .error f) :
    g.take line = .error (.fault g.program f) := by
  unfold Grammar.take
  rw [hr]
  rfl

theorem take_command {name : Text} (hn : name.head? ≠ some (.char '-')) (rest : List Text) :
    grammar.take (name :: rest) =
      (fun _ => ⟨[.slot commandSlot (name :: rest)], []⟩) <$>
        (grammar.readTokens rest).mapError (.fault program) := by
  cases hr : grammar.readTokens rest with
  | error f => exact take_of_fault (by rw [Grammar.readTokens_argument hn, hr]; rfl)
  | ok tokens =>
    have hmatch := matchTokens_command (g := grammar) name tokens
    rw [Grammar.map_text_of_readTokens hr] at hmatch
    exact take_of_match (Grammar.readTokens_behind hn hr) hmatch

/-- The line of a command that is named, with what follows its name. -/
def commandLine (log : Option (Option Text)) (name : Text) (rest : List Text) :
    Except Stop Line := do
  let (c, extras) ← ofTokens name rest
  match extras with
  | [] => return ⟨log, some c⟩
  | unknown => throw (.fault program (.unrecognized unknown))

theorem parse_of_take {line : List Text} {bs : Bindings} {name : Text} {rest : List Text}
    (ht : grammar.take line = .ok ⟨bs, []⟩) (hv : bs.values commandSlot = name :: rest) :
    Line.parse line = commandLine (bs.text? logFlag) name rest := by
  unfold Line.parse commandLine
  simp only [ht, bind, Except.bind, hv]
  cases ofTokens name rest with
  | error s => rfl
  | ok made =>
    obtain ⟨c, extras⟩ := made
    cases extras <;> rfl

theorem parse_of_take_error {line : List Text} {s : Stop} (ht : grammar.take line = .error s) :
    Line.parse line = .error s := by
  unfold Line.parse
  rw [ht]
  rfl

/-- Tokens that begin with a command are read twice: as a part of the whole line, where only a fault
counts, and by the grammar of the command. -/
theorem parse_command {name : Text} (hn : name.head? ≠ some (.char '-')) (rest : List Text) :
    Line.parse (name :: rest) =
      ((grammar.readTokens rest).mapError (.fault program) >>= fun _ =>
        commandLine none name rest) := by
  have ht := take_command hn rest
  cases hr : grammar.readTokens rest with
  | error f =>
    rw [hr] at ht
    exact parse_of_take_error ht
  | ok tokens =>
    rw [hr] at ht
    exact parse_of_take ht rfl

/-- The line of a command that is known, of what its grammar takes. -/
def Form.conclude (f : Form) (taken : Taken) : Except Stop Line :=
  match taken.extras with
  | [] => .ok ⟨none, some (f.make taken.bindings)⟩
  | unknown => .error (.fault program (.unrecognized unknown))

theorem Form.conclude_extras {taken : Taken} (f : Form) (he : taken.extras ≠ []) :
    f.conclude taken = .error (.fault program (.unrecognized taken.extras)) := by
  obtain ⟨bindings, extras⟩ := taken
  cases extras with
  | nil => exact absurd rfl he
  | cons token more => rfl

theorem commandLine_of_form {f : Form} {name : Text} (hf : Form.ofName? name = some f)
    (rest : List Text) : commandLine none name rest = f.grammar.take rest >>= f.conclude := by
  unfold commandLine ofTokens Form.conclude
  rw [hf]
  dsimp only
  cases f.grammar.take rest with
  | error s => rfl
  | ok taken =>
    obtain ⟨bindings, extras⟩ := taken
    cases extras <;> rfl

theorem commandLine_eq (log : Option (Option Text)) (name : Text) (rest : List Text) :
    commandLine log name rest = (fun line => { line with log }) <$> commandLine none name rest := by
  unfold commandLine
  cases ofTokens name rest with
  | error s => rfl
  | ok made =>
    obtain ⟨c, extras⟩ := made
    cases extras <;> rfl

end ClipActions.Command
