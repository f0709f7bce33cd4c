import ClipActions.Proofs.Command.Options
import ClipActions.Proofs.Command.Routing

/-!
Shortcuts. A built-in action is asked for by one of its names, or by `run` and that name. The places
of the two grammars are filled in parallel, but for two forms of a line: the places of `run` are all
filled before the first option, and the place of the action takes a mark that ends the options.
-/
namespace ClipActions.Command

variable {g : Grammar} {slots : List Slot} {tokens rest plain : List Token} {t : Token}

/-! Where arguments wait for their place. -/

/-- What is taken by the place for arguments. -/
theorem fill_args (tokens : List Token) : fill [argsSlot] tokens =
    ([.slot argsSlot (((tokens.takeWhile Place.isPlain).map (·.text)).erase Grammar.endOfOptions)],
      [], (tokens.takeWhile Place.isPlain).length) := by
  have htake : tokens.take (tokens.takeWhile Place.isPlain).length =
      tokens.takeWhile Place.isPlain :=
    (List.prefix_iff_eq_take.1 (List.takeWhile_prefix _)).symm
  simp [fill, argsSlot, Place.take?, Place.values, htake]

/-- The place for the action takes its name, and the arguments have the rest. -/
theorem fill_run {name : Text} (hn : name ≠ Grammar.endOfOptions)
    (ht : ∀ t ∈ tokens.head?, t.reading ≠ .terminator) :
    fill [actionSlot, argsSlot] (⟨name, .argument⟩ :: tokens) =
      (.slot actionSlot [name] :: (fill [argsSlot] tokens).1, [],
        (fill [argsSlot] tokens).2.2 + 1) := by
  have hends : tokens.takeWhile Place.isTerminator = [] := by
    cases tokens with
    | nil => rfl
    | cons t tokens =>
      exact List.takeWhile_cons_of_neg (by simpa [Place.isTerminator] using ht t rfl)
  rw [fill]
  simp [fill_args, actionSlot, Place.take?, Place.isTerminator, hends, Place.values, hn,
    Nat.add_comm]

def argumentsOf (tokens : List Token) : List Text :=
  (tokens.map (·.text)).erase Grammar.endOfOptions

theorem fill_args_append (hp : ∀ t ∈ plain, Place.isPlain t = true)
    (ht : ∀ t ∈ rest.head?, t.reading.isOption = true) :
    fill [argsSlot] (plain ++ rest) = ([.slot argsSlot (argumentsOf plain)], [], plain.length) := by
  have htake : (plain ++ rest).takeWhile Place.isPlain = plain := by
    rw [List.takeWhile_append_of_pos hp]
    cases rest with
    | nil => exact List.append_nil plain
    | cons t rest =>
      rw [List.takeWhile_cons_of_neg (by simp [isPlain_of_isOption (ht t rfl)]), List.append_nil]
  rw [fill_args, htake, argumentsOf]

theorem match_args (hp : ∀ t ∈ tokens, Place.isPlain t = true) :
    matchTokens g [argsSlot] tokens = .ok (⟨[.slot argsSlot (argumentsOf tokens)], []⟩, []) := by
  have hfill : fill [argsSlot] (tokens ++ []) = _ := fill_args_append hp nofun
  rw [List.append_nil] at hfill
  rw [matchTokens_plain hp hfill, List.drop_length, List.map_nil]

theorem match_run {name : Text} (hn : name ≠ Grammar.endOfOptions)
    (hp : ∀ t ∈ tokens, Place.isPlain t = true) (ht : ∀ t ∈ tokens.head?, t.reading ≠ .terminator) :
    matchTokens g [actionSlot, argsSlot] (⟨name, .argument⟩ :: tokens) =
      .ok (⟨[.slot actionSlot [name], .slot argsSlot (argumentsOf tokens)], []⟩, []) := by
  have hargs : fill [argsSlot] (tokens ++ []) = _ := fill_args_append hp nofun
  have hfill := fill_run hn ht
  rw [List.append_nil] at hargs
  rw [hargs] at hfill
  have hall : ∀ t ∈ (⟨name, .argument⟩ :: tokens : List Token), Place.isPlain t = true :=
    List.forall_mem_cons.2 ⟨rfl, hp⟩
  rw [matchTokens_plain hall hfill, List.drop_succ_cons, List.drop_length, List.map_nil]

/-- Places that take all arguments before an option leave the rest to the other places. -/
theorem matchTokens_filled {bindings : List Binding} {waiting : List Slot}
    (hp : ∀ t ∈ plain, Place.isPlain t = true) (hne : plain ≠ []) (ho : t.reading.isOption = true)
    (hf : fill slots (plain ++ t :: rest) = (bindings, waiting, plain.length)) :
    matchTokens g slots (plain ++ t :: rest) =
      (fun p => (⟨bindings, []⟩ ++ p.1, p.2)) <$> matchTokens g waiting (t :: rest) := by
  have hif : (if plain.isEmpty then ([], slots, 0) else fill slots (plain ++ t :: rest)) =
      (bindings, waiting, plain.length) := by
    rw [if_neg (by simpa using hne), hf]
  rw [matchTokens_chunk hp ho hif, if_neg (by simpa using hne), List.drop_left]
  cases matchTokens g waiting (t :: rest) <;> rfl

theorem match_args_option (hp : ∀ t ∈ plain, Place.isPlain t = true) (hne : plain ≠ [])
    (ho : t.reading.isOption = true) :
    matchTokens g [argsSlot] (plain ++ t :: rest) =
      (fun p => (⟨[.slot argsSlot (argumentsOf plain)], []⟩ ++ p.1, p.2)) <$>
        matchTokens g [] (t :: rest) := by
  refine matchTokens_filled hp hne ho (fill_args_append hp ?_)
  rintro u ⟨⟩
  exact ho

theorem match_run_option {name : Text} (hn : name ≠ Grammar.endOfOptions)
    (hp : ∀ t ∈ plain, Place.isPlain t = true) (ho : t.reading.isOption = true)
    (ht : ∀ t ∈ plain.head?, t.reading ≠ .terminator) (rest : List Token) :
    matchTokens g [actionSlot, argsSlot] (⟨name, .argument⟩ :: (plain ++ t :: rest)) =
      (fun p =>
        (⟨[.slot actionSlot [name], .slot argsSlot (argumentsOf plain)], []⟩ ++ p.1, p.2)) <$>
        matchTokens g [] (t :: rest) := by
  have hargs : fill [argsSlot] (plain ++ t :: rest) = _ := fill_args_append hp (by
    rintro u ⟨⟩
    exact ho)
  have hhead : ∀ u ∈ (plain ++ t :: rest).head?, u.reading ≠ .terminator := by
    cases plain with
    | nil =>
      rintro u ⟨⟩ hterm
      rw [hterm] at ho
      cases ho
    | cons u plain => exact ht
  have hfill := fill_run hn hhead
  rw [hargs] at hfill
  have hall : ∀ t ∈ (⟨name, .argument⟩ :: plain : List Token), Place.isPlain t = true :=
    List.forall_mem_cons.2 ⟨rfl, hp⟩
  exact matchTokens_filled hall (List.cons_ne_nil _ _) ho hfill

/-- Where there are options alone, the place for arguments is filled with nothing in the end. -/
theorem match_args_options (ho : ∀ t ∈ tokens, t.reading.isOption = true) :
    matchTokens g [argsSlot] tokens =
      (fun p => (p.1 ++ ⟨[.slot argsSlot []], []⟩, p.2)) <$> matchTokens g [] tokens := by
  induction hn : tokens.length using Nat.strong_induction_on generalizing tokens with
  | _ n ih =>
    cases tokens with
    | nil =>
      have hfill : fill [] [] = ([], [], 0) := rfl
      rw [match_args (List.forall_mem_nil _), matchTokens_plain (List.forall_mem_nil _) hfill]
      rfl
    | cons t rest =>
      obtain ⟨ht, hrest⟩ := List.forall_mem_cons.1 ho
      cases htake : takeToken g t rest with
      | error s => rw [matchTokens_stopped ht htake, matchTokens_stopped ht htake]; rfl
      | ok p =>
        obtain ⟨taken, following⟩ := p
        have hoptions : ∀ u ∈ rest.drop following, u.reading.isOption = true :=
          fun u hu => hrest u (List.mem_of_mem_drop hu)
        have hmore := ih _ (hn ▸ length_rest_lt [] t rest following) hoptions rfl
        rw [matchTokens_taken ht htake, matchTokens_taken ht htake, hmore]
        cases matchTokens g [] (rest.drop following) with
        | error s => rfl
        | ok q =>
          simp only [Functor.map, Except.map, Taken.append_assoc]

/-! Two ways to ask for a built-in action. -/

variable {a : Action} {name : Text}

/-- A name means an action in every registry that begins with the built-in actions. -/
def Means (a : Action) (name : Text) : Prop :=
  ∀ r : Registry, Action.builtins <+: r.actions → r.resolve name = some a

/-- Two lines that ask for an action in the same way, or that stop for the same reason. -/
inductive Alike (a : Action) : Except Stop Line → Except Stop Line → Prop
  | run {first second : Text} (args : List Text) (copy yes : Bool) (hf : Means a first)
      (hs : Means a second) :
      Alike a (.ok ⟨none, some (.run first args copy yes)⟩)
        (.ok ⟨none, some (.run second args copy yes)⟩)
  | fault (first second : Text) (f : Fault) :
      Alike a (.error (.fault first f)) (.error (.fault second f))
  | help (first second : Grammar) : Alike a (.error (.help first)) (.error (.help second))
  | version (v : Text) : Alike a (.error (.version v)) (.error (.version v))

theorem alike_within (s : Stop) (g : Grammar) : Alike a (.error (s.within g)) (.error s) := by
  cases s with
  | fault program f => exact .fault _ _ f
  | help g' => exact .help _ _
  | version v => exact .version v

structure Builtin (a : Action) (name : Text) : Prop where
  found : Registry.owner? Action.builtins name = some a
  form : Form.ofName? name = some (Form.shortcut a)
  argument : name.head? ≠ some (.char '-')
  known : name ∈ Form.known

theorem builtin_of_mem (ha : a ∈ Action.builtins) (hn : name ∈ a.names) : Builtin a name := by
  simp only [Action.builtins, List.mem_cons, List.not_mem_nil, or_false] at ha
  rcases ha with rfl | rfl | rfl | rfl | rfl | rfl | rfl
  all_goals
    simp only [Action.names, Action.summary, Action.explain, Action.translate, Action.improve,
      Action.extract, Action.tldr, Action.classify, List.mem_cons, List.not_mem_nil, or_false] at hn
  · rcases hn with rfl | rfl | rfl <;> exact ⟨rfl, rfl, by decide, by decide⟩
  all_goals
    subst hn
    exact ⟨rfl, rfl, by decide, by decide⟩

theorem Builtin.means (hb : Builtin a name) : Means a name := by
  rintro r ⟨plugins, hr⟩
  rw [Registry.resolve, ← hr, Registry.owner?, List.find?_append]
  have hfound : Action.builtins.find? (·.names.contains name) = some a := hb.found
  rw [hfound]
  rfl

/-- What the grammars of a shortcut and of `run` take comes to the same wishes. -/
structure Agree (name : Text) (short long : Taken) : Prop where
  extras : short.extras = long.extras
  args : Bindings.values short.bindings argsSlot = Bindings.values long.bindings argsSlot
  copy : Bindings.has short.bindings copyFlag = Bindings.has long.bindings copyFlag
  yes : Bindings.has short.bindings yesFlag = Bindings.has long.bindings yesFlag
  action : Bindings.value long.bindings actionSlot = name

theorem Agree.conclude {short long : Taken} (h : Agree name short long) (hb : Builtin a name)
    (hid : Means a a.id) : Alike a ((Form.shortcut a).conclude short) (Form.run.conclude long) := by
  unfold Form.conclude
  rw [h.extras]
  cases long.extras with
  | nil =>
    dsimp only [Form.shortcut, Form.run]
    rw [h.args, h.copy, h.yes, h.action]
    exact .run _ _ _ hid hb.means
  | cons token more => exact .fault _ _ _

theorem agree_behind (name : Text) (values : List Text) (taken : Taken) :
    Agree name (⟨[.slot argsSlot values], []⟩ ++ taken)
      (⟨[.slot actionSlot [name], .slot argsSlot values], []⟩ ++ taken) :=
  ⟨rfl, rfl, rfl, rfl, rfl⟩

theorem agree_options {taken : Taken} (name : Text)
    (hf : ∀ b ∈ taken.bindings, ∃ f v, b = .flag f v) :
    Agree name (taken ++ ⟨[.slot argsSlot []], []⟩)
      (⟨[.slot actionSlot [name], .slot argsSlot []], []⟩ ++ taken) := by
  have hvalues : ∀ bs : Bindings, (∀ b ∈ bs, ∃ f v, b = .flag f v) →
      Bindings.values (bs ++ [.slot argsSlot []]) argsSlot = [] := by
    intro bs hbs
    induction bs with
    | nil => rfl
    | cons b bs ih =>
      obtain ⟨⟨f, v, rfl⟩, hrest⟩ := List.forall_mem_cons.1 hbs
      exact ih hrest
  have hhas : ∀ f, Bindings.has (taken.bindings ++ [.slot argsSlot []]) f =
      Bindings.has taken.bindings f := by
    intro f
    simp [Bindings.has]
  exact ⟨List.append_nil _, hvalues _ hf, hhas _, hhas _, rfl⟩

/-- How the two grammars take the same tokens: they stop alike, or what they take agrees. -/
def Parallel (a : Action) (name : Text) (tokens : List Token) : Prop :=
  (∃ s, matchTokens (Form.shortcut a).grammar [argsSlot] tokens =
      .error (s.within (Form.shortcut a).grammar) ∧
    matchTokens Form.run.grammar [actionSlot, argsSlot] (⟨name, .argument⟩ :: tokens) = .error s) ∨
  ∃ short long, Agree name short long ∧
    matchTokens (Form.shortcut a).grammar [argsSlot] tokens = .ok (short, []) ∧
    matchTokens Form.run.grammar [actionSlot, argsSlot] (⟨name, .argument⟩ :: tokens) =
      .ok (long, [])

theorem flags_shortcut (a : Action) :
    Form.run.grammar.flags = (Form.shortcut a).grammar.flags := rfl

/-- The two grammars take the same tokens in parallel unless an option stands first and an argument
behind it, or the mark that ends the options stands first. -/
theorem parallel (a : Action) (hn : name ≠ Grammar.endOfOptions)
    (ht : ∀ t ∈ tokens.head?, t.reading ≠ .terminator)
    (ho : (∃ t ∈ tokens.head?, t.reading.isOption = true) →
      ∀ t ∈ tokens, t.reading.isOption = true) : Parallel a name tokens := by
  unfold Parallel
  rw [matchTokens_within (flags_shortcut a)]
  -- Arguments alone, options from the start, or arguments before the first option.
  rcases plain_or_option tokens with hp | ⟨plain, t, rest, rfl, hp, htoption⟩
  · rw [match_args hp, match_run hn hp ht]
    exact .inr ⟨_, _, agree_behind name _ {}, rfl, rfl⟩
  cases plain with
  | nil =>
    have hoptions := ho ⟨t, rfl, htoption⟩
    rw [match_run_option hn hp htoption nofun, match_args_options hoptions, List.nil_append]
    cases hm : matchTokens Form.run.grammar [] (t :: rest) with
    | error s => exact .inl ⟨s, rfl, rfl⟩
    | ok p =>
      obtain ⟨taken, left⟩ := p
      obtain ⟨rfl, hflags⟩ := matchTokens_unplaced hm
      exact .inr ⟨_, _, agree_options name hflags, rfl, rfl⟩
  | cons u plain =>
    rw [match_args_option hp (List.cons_ne_nil _ _) htoption, match_run_option hn hp htoption ht]
    cases hm : matchTokens Form.run.grammar [] (t :: rest) with
    | error s => exact .inl ⟨s, rfl, rfl⟩
    | ok p =>
      obtain ⟨taken, left⟩ := p
      obtain ⟨rfl, -⟩ := matchTokens_unplaced hm
      exact .inr ⟨_, _, agree_behind name _ taken, rfl, rfl⟩

/-! The lines. -/

def said (line : List Text) : Except Stop Line := Line.parse (route Form.known line)

/-- An option stands first, and an argument behind it. -/
def optionFirst (rest : List Text) : Bool :=
  match Form.run.grammar.readTokens rest with
  | .ok (t :: more) => t.reading.isOption && more.any Place.isPlain
  | _ => false

theorem said_command {f : Form} (hn : name.head? ≠ some (.char '-')) (hk : name ∈ Form.known)
    (hf : Form.ofName? name = some f) (rest : List Text) :
    said (name :: rest) =
      ((grammar.readTokens rest).mapError (.fault program) >>= fun _ =>
        f.grammar.take rest >>= f.conclude) := by
  rw [said, route_known hn hk, parse_command hn, commandLine_of_form hf]

theorem said_short (hb : Builtin a name) (rest : List Text) :
    said (name :: rest) =
      ((grammar.readTokens rest).mapError (.fault program) >>= fun _ =>
        (Form.shortcut a).grammar.take rest >>= (Form.shortcut a).conclude) :=
  said_command hb.argument hb.known hb.form rest

theorem said_long (hb : Builtin a name) (rest : List Text) :
    said (Form.run.name :: name :: rest) =
      ((grammar.readTokens rest).mapError (.fault program) >>= fun _ =>
        Form.run.grammar.take (name :: rest) >>= Form.run.conclude) := by
  rw [said_command (by decide) (by decide) (f := Form.run) rfl,
    Grammar.readTokens_argument hb.argument]
  cases grammar.readTokens rest <;> rfl

theorem readToken_ne_terminator {text : Text} : g.readToken text ≠ .ok .terminator := by
  intro hr
  unfold Grammar.readToken Grammar.readUnspelled at hr
  repeat' split at hr
  all_goals cases hr

theorem head_ne_terminator {rest : List Text} (hr : g.readTokens rest = .ok tokens)
    (he : rest.head? ≠ some Grammar.endOfOptions) :
    ∀ t ∈ tokens.head?, t.reading ≠ .terminator := by
  cases rest with
  | nil =>
    cases hr
    exact nofun
  | cons text rest =>
    obtain ⟨reading, more, hreading, -, rfl⟩ := Grammar.readTokens_ok (by simpa using he) hr
    rintro t ⟨⟩ rfl
    exact readToken_ne_terminator hreading

/-- Parallel tokens make lines that are alike. -/
theorem Parallel.alike {rest : List Text} (hb : Builtin a name) (hid : Means a a.id)
    (hr : Form.run.grammar.readTokens rest = .ok tokens) (hp : Parallel a name tokens) :
    Alike a ((Form.shortcut a).grammar.take rest >>= (Form.shortcut a).conclude)
      (Form.run.grammar.take (name :: rest) >>= Form.run.conclude) := by
  have hshort : (Form.shortcut a).grammar.readTokens rest = .ok tokens :=
    (readTokens_congr (flags_shortcut a) rest).trans hr
  have hlong := Grammar.readTokens_behind hb.argument hr
  obtain ⟨s, hs, hl⟩ | ⟨short, long, hagree, hs, hl⟩ := hp
  · rw [take_of_stop hshort hs, take_of_stop hlong hl]
    exact alike_within s _
  · rw [take_of_match hshort hs, take_of_match hlong hl]
    exact hagree.conclude hb hid

theorem said_alike (hb : Builtin a name) (hid : Means a a.id) {rest : List Text}
    (ho : optionFirst rest = false) (he : rest.head? ≠ some Grammar.endOfOptions) :
    Alike a (said (name :: rest)) (said (Form.run.name :: name :: rest)) := by
  rw [said_short hb, said_long hb]
  cases grammar.readTokens rest with
  | error f => exact .fault _ _ f
  | ok read =>
    change Alike a ((Form.shortcut a).grammar.take rest >>= (Form.shortcut a).conclude)
      (Form.run.grammar.take (name :: rest) >>= Form.run.conclude)
    cases hr : Form.run.grammar.readTokens rest with
    | error f =>
      have hshort := (readTokens_congr (flags_shortcut a) rest).trans hr
      have hlong : Form.run.grammar.readTokens (name :: rest) = .error f := by
        rw [Grammar.readTokens_argument hb.argument, hr]
        rfl
      rw [take_of_fault hshort, take_of_fault hlong]
      exact .fault _ _ f
    | ok tokens =>
      refine (parallel a (Grammar.ne_endOfOptions hb.argument) (head_ne_terminator hr he) ?_).alike
        hb hid hr
      rintro ⟨t, ht, htoption⟩
      cases tokens with
      | nil => exact nofun
      | cons u more =>
        cases ht
        have hmore : ∀ t ∈ more, t.reading.isOption = true := by
          simpa [optionFirst, hr, htoption, Place.isPlain] using ho
        exact List.forall_mem_cons.2 ⟨htoption, hmore⟩

/-- An argument behind an option that stands first is too much for `run`. -/
theorem said_option_first (hb : Builtin a name) {rest : List Text} (ho : optionFirst rest = true) :
    ∃ s, said (Form.run.name :: name :: rest) = .error s := by
  rw [said_long hb]
  cases grammar.readTokens rest with
  | error f => exact ⟨_, rfl⟩
  | ok read =>
    change ∃ s, (Form.run.grammar.take (name :: rest) >>= Form.run.conclude) = .error s
    unfold optionFirst at ho
    split at ho
    · rename_i t more hr
      obtain ⟨htoption, hplain⟩ : t.reading.isOption = true ∧
          ∃ u ∈ more, Place.isPlain u = true := by
        simpa using ho
      have hlong := Grammar.readTokens_behind hb.argument hr
      have hmatch : matchTokens Form.run.grammar [actionSlot, argsSlot]
          (⟨name, .argument⟩ :: ([] ++ t :: more)) = _ :=
        match_run_option (Grammar.ne_endOfOptions hb.argument) (List.forall_mem_nil _) htoption
          nofun more
      cases hm : matchTokens Form.run.grammar [] (t :: more) with
      | error s =>
        rw [hm] at hmatch
        exact ⟨s, by rw [take_of_stop hlong hmatch]; rfl⟩
      | ok p =>
        obtain ⟨taken, left⟩ := p
        obtain ⟨rfl, -⟩ := matchTokens_unplaced hm
        have hmarks : ∀ f ∈ Form.run.grammar.flags, f.takesValue = false := by decide
        have hextras := extras_of_plain hmarks (alone_of_readTokens hmarks hr)
          (by obtain ⟨u, hu, hp⟩ := hplain; exact ⟨u, List.mem_cons_of_mem _ hu, hp⟩) hm
        rw [hm] at hmatch
        rw [take_of_match hlong hmatch]
        exact ⟨_, Form.conclude_extras Form.run hextras⟩
    · cases ho

/-- The tokens behind the mark that ends the options. -/
def terminated (more : List Text) : List Token := more.map (⟨·, .argument⟩)

theorem readTokens_terminated (g : Grammar) (more : List Text) :
    g.readTokens (Grammar.endOfOptions :: more) =
      .ok (⟨Grammar.endOfOptions, .terminator⟩ :: terminated more) := by
  rw [Grammar.readTokens, if_pos rfl, terminated]

theorem plain_terminated (more : List Text) : ∀ t ∈ terminated more, Place.isPlain t = true := by
  intro t ht
  obtain ⟨text, -, rfl⟩ := List.mem_map.1 ht
  rfl

theorem map_text_terminated (more : List Text) : (terminated more).map (·.text) = more := by
  simp [terminated, Function.comp_def]

theorem match_args_terminated (more : List Text) :
    matchTokens g [argsSlot] (⟨Grammar.endOfOptions, .terminator⟩ :: terminated more) =
      .ok (⟨[.slot argsSlot more], []⟩, []) := by
  rw [match_args (List.forall_mem_cons.2 ⟨rfl, plain_terminated more⟩), argumentsOf, List.map_cons,
    map_text_terminated, List.erase_cons_head]

theorem match_run_terminated (hn : name ≠ Grammar.endOfOptions) (more : List Text) :
    matchTokens g [actionSlot, argsSlot]
      (⟨name, .argument⟩ :: ⟨Grammar.endOfOptions, .terminator⟩ :: terminated more) =
      .ok (⟨[.slot actionSlot [name], .slot argsSlot (more.erase Grammar.endOfOptions)], []⟩,
        []) := by
  have hends : (terminated more).takeWhile Place.isTerminator = [] := by
    cases more <;> rfl
  have hargs : fill [argsSlot] (terminated more ++ []) = _ :=
    fill_args_append (plain_terminated more) nofun
  rw [List.append_nil, argumentsOf, map_text_terminated] at hargs
  have hfill : fill [actionSlot, argsSlot]
      (⟨name, .argument⟩ :: ⟨Grammar.endOfOptions, .terminator⟩ :: terminated more) =
      ([.slot actionSlot [name], .slot argsSlot (more.erase Grammar.endOfOptions)], [],
        2 + (terminated more).length) := by
    rw [fill]
    simp [hargs, actionSlot, Place.take?, Place.isTerminator, hends, Place.values, hn]
  have hlen : (⟨name, .argument⟩ :: ⟨Grammar.endOfOptions, .terminator⟩ ::
      terminated more : List Token).length ≤ 2 + (terminated more).length := by
    rw [List.length_cons, List.length_cons]
    omega
  have hplain : ∀ t ∈ (⟨name, .argument⟩ :: ⟨Grammar.endOfOptions, .terminator⟩ ::
      terminated more : List Token), Place.isPlain t = true :=
    List.forall_mem_cons.2 ⟨rfl, List.forall_mem_cons.2 ⟨rfl, plain_terminated more⟩⟩
  rw [matchTokens_plain hplain hfill, List.drop_eq_nil_of_le hlen, List.map_nil]

/-- The place of the action takes the first mark that ends the options, so that the arguments of
`run` lose another one. -/
theorem said_terminated (hb : Builtin a name) (more : List Text) :
    said (name :: Grammar.endOfOptions :: more) = .ok ⟨none, some (.run a.id more false false)⟩ ∧
    said (Form.run.name :: name :: Grammar.endOfOptions :: more) =
      .ok ⟨none, some (.run name (more.erase Grammar.endOfOptions) false false)⟩ := by
  constructor
  · rw [said_short hb, readTokens_terminated,
      take_of_match (readTokens_terminated _ more) (match_args_terminated more)]
    rfl
  · have hread := Grammar.readTokens_behind hb.argument (readTokens_terminated Form.run.grammar more)
    have hmatch := match_run_terminated (g := Form.run.grammar)
      (Grammar.ne_endOfOptions hb.argument) more
    rw [said_long hb, readTokens_terminated, take_of_match hread hmatch]
    rfl

end ClipActions.Command
