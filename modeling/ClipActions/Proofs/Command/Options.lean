import ClipActions.Proofs.Command.Parsing

/-!
Options on a command line. Grammars with the same options take a line in the same way; an option
without a value takes no token but its own; and where no place waits, every argument is left over.
-/
namespace ClipActions.Command

variable {g g' : Grammar} {slots : List Slot} {tokens rest plain : List Token} {t : Token}
  {taken : Taken} {left : List Slot}

/-! Grammars with the same options differ in the stops they name, and in nothing else. -/

/-- A stop as it is for a grammar. -/
def Stop.within (g : Grammar) : Stop → Stop
  | .fault _ f => .fault g.program f
  | .help _ => .help g
  | .version v => .version v

theorem flag?_congr (hg : g.flags = g'.flags) (name : Text) : g'.flag? name = g.flag? name := by
  rw [Grammar.flag?, Grammar.flag?, Grammar.spellings, Grammar.spellings, hg]

theorem readToken_congr (hg : g.flags = g'.flags) (text : Text) :
    g'.readToken text = g.readToken text := by
  obtain ⟨program, flags, slots⟩ := g
  obtain ⟨program', flags', slots'⟩ := g'
  cases hg
  rfl

theorem readTokens_congr (hg : g.flags = g'.flags) (line : List Text) :
    g'.readTokens line = g.readTokens line := by
  induction line with
  | nil => rfl
  | cons text line ih =>
    rw [Grammar.readTokens, Grammar.readTokens, readToken_congr hg, ih]

theorem openJoined_congr (hg : g.flags = g'.flags) (f : Flag) (name joined : Text)
    (rest : List Token) : openJoined g' f name joined rest = openJoined g f name joined rest := by
  have hnext : clusterNext? g' = clusterNext? g := by
    funext name letter
    rw [clusterNext?, clusterNext?, flag?_congr hg]
  induction joined generalizing f name with
  | nil =>
    rw [openJoined.eq_def, openJoined.eq_def]
  | cons letter more ih =>
    rw [openJoined.eq_def, openJoined.eq_def, hnext]
    simp only [ih]

theorem openToken_congr (hg : g.flags = g'.flags) (t : Token) (rest : List Token) :
    openToken g' t rest = openToken g t rest := by
  unfold openToken openOption
  simp only [openJoined_congr hg]

theorem bind_within (g' : Grammar) (u : Use) :
    u.bind g' = (u.bind g).mapError (Stop.within g') := by
  unfold Use.bind
  split
  · rfl
  · rfl
  · split
    · rfl
    · split <;> rfl
  · rfl
  · rfl

theorem mapM_bind_within (g' : Grammar) (uses : List Use) :
    uses.mapM (Use.bind g') = (uses.mapM (Use.bind g)).mapError (Stop.within g') := by
  induction uses with
  | nil => rfl
  | cons u uses ih =>
    rw [List.mapM_cons, List.mapM_cons, ih, bind_within (g := g)]
    cases u.bind g with
    | error s => rfl
    | ok b => cases uses.mapM (Use.bind g) <;> rfl

theorem takeToken_within (hg : g.flags = g'.flags) (t : Token) (rest : List Token) :
    takeToken g' t rest = (takeToken g t rest).mapError (Stop.within g') := by
  unfold takeToken
  rw [openToken_congr hg]
  cases openToken g t rest with
  | error f => rfl
  | ok opened =>
    have huses := mapM_bind_within (g := g) g' opened.uses
    change (opened.uses.mapM (Use.bind g') >>= _) = _
    rw [huses]
    change _ = Except.mapError _ (opened.uses.mapM (Use.bind g) >>= _)
    cases opened.uses.mapM (Use.bind g) <;> rfl

theorem matchTokens_within (hg : g.flags = g'.flags) (slots : List Slot) (tokens : List Token) :
    matchTokens g' slots tokens = (matchTokens g slots tokens).mapError (Stop.within g') := by
  induction tokens using induction_options generalizing slots with
  | hplain tokens hp => rw [matchTokens_plain hp rfl, matchTokens_plain hp rfl]; rfl
  | hoption plain t rest hp ho ih =>
    obtain ⟨⟨bindings, waiting, n⟩, hf⟩ :
        ∃ filled,
          (if plain.isEmpty then ([], slots, 0) else fill slots (plain ++ t :: rest)) = filled :=
      ⟨_, rfl⟩
    rw [matchTokens_chunk hp ho hf, matchTokens_chunk hp ho hf, takeToken_within hg]
    by_cases hn : n = 0
    · rw [if_pos hn, if_pos hn]
      cases takeToken g t rest with
      | error s => rfl
      | ok p =>
        obtain ⟨taken, following⟩ := p
        have hrest := ih _ (length_rest_lt plain t rest following) waiting
        change (matchTokens g' waiting (rest.drop following) >>= _) =
          Except.mapError _ (matchTokens g waiting (rest.drop following) >>= _)
        rw [hrest]
        cases matchTokens g waiting (rest.drop following) <;> rfl
    · rw [if_neg hn, if_neg hn]
      have hlen : ((plain ++ t :: rest).drop n).length < (plain ++ t :: rest).length := by
        rw [List.length_drop, List.length_append, List.length_cons]
        omega
      have hrest := ih _ hlen waiting
      change (matchTokens g' waiting ((plain ++ t :: rest).drop n) >>= _) =
        Except.mapError _ (matchTokens g waiting ((plain ++ t :: rest).drop n) >>= _)
      rw [hrest]
      cases matchTokens g waiting ((plain ++ t :: rest).drop n) <;> rfl

/-! What an option takes. -/

/-- An option takes none of the tokens after it. -/
def Token.Alone (t : Token) : Prop := ∀ s, t.reading = .option s → s.flag.takesValue = false

theorem mem_flags_of_spelling {name : Text} {f : Flag} (hm : (name, f) ∈ g.spellings) :
    f ∈ g.flags := by
  obtain ⟨f', hf', hname⟩ := List.mem_flatMap.1 hm
  obtain ⟨_, -, he⟩ := List.mem_map.1 hname
  cases he
  exact hf'

theorem mem_flags_of_flag? {name : Text} {f : Flag} (hf : g.flag? name = some f) :
    f ∈ g.flags := by
  obtain ⟨before, after, he, -⟩ := List.lookup_eq_some_iff.1 hf
  have hm : (name, f) ∈ g.spellings := by
    rw [he]
    simp
  exact mem_flags_of_spelling hm

theorem mem_flags_of_candidates {token : Text} {s : Spelled} (hs : s ∈ g.candidates token) :
    s.flag ∈ g.flags := by
  unfold Grammar.candidates at hs
  split at hs
  · obtain ⟨⟨name, f⟩, hm, rfl⟩ := List.mem_map.1 hs
    exact mem_flags_of_spelling (List.mem_filter.1 hm).1
  · obtain ⟨⟨name, f⟩, hm, he⟩ := List.mem_filterMap.1 hs
    have hflag : s.flag = f := by
      dsimp only at he
      split_ifs at he <;> cases he <;> rfl
    exact hflag ▸ mem_flags_of_spelling hm

theorem mem_flags_of_readToken {token : Text} {s : Spelled}
    (hr : g.readToken token = .ok (.option s)) : s.flag ∈ g.flags := by
  unfold Grammar.readToken at hr
  split at hr
  · cases hr
  split at hr
  · rename_i f hf
    cases hr
    exact mem_flags_of_flag? hf
  split at hr
  · cases hr
  split at hr
  · rename_i s' hs
    cases hr
    unfold Grammar.withEquals? at hs
    split at hs
    · obtain ⟨f, hf, rfl⟩ := Option.map_eq_some_iff.1 hs
      exact mem_flags_of_flag? hf
    · cases hs
  · unfold Grammar.readUnspelled at hr
    split at hr
    · rename_i s' hs
      cases hr
      exact mem_flags_of_candidates (hs ▸ List.mem_singleton_self _)
    · split_ifs at hr <;> cases hr
    · cases hr

theorem alone_of_readTokens {line : List Text} (hg : ∀ f ∈ g.flags, f.takesValue = false)
    (hr : g.readTokens line = .ok tokens) : ∀ t ∈ tokens, t.Alone := by
  induction line generalizing tokens with
  | nil =>
    cases hr
    exact List.forall_mem_nil _
  | cons text line ih =>
    by_cases ht : text = Grammar.endOfOptions
    · rw [Grammar.readTokens, if_pos ht] at hr
      cases hr
      refine List.forall_mem_cons.2 ⟨fun s hs => ?_, fun t hm s hs => ?_⟩
      · cases hs
      · obtain ⟨_, -, rfl⟩ := List.mem_map.1 hm
        cases hs
    · obtain ⟨reading, rest, hreading, hrest, rfl⟩ := Grammar.readTokens_ok ht hr
      refine List.forall_mem_cons.2 ⟨fun s hs => ?_, ih hrest⟩
      cases hs
      exact hg _ (mem_flags_of_readToken hreading)

theorem openAlone_following {f : Flag} {opened : Opened} (hf : f.takesValue = false)
    (ho : openAlone f rest = .ok opened) : opened.following = 0 := by
  unfold openAlone at ho
  rw [if_neg (by simp [hf])] at ho
  cases ho
  rfl

theorem openJoined_following (hg : ∀ f ∈ g.flags, f.takesValue = false) {f : Flag}
    {name joined : Text} {opened : Opened} (hf : f.takesValue = false)
    (ho : openJoined g f name joined rest = .ok opened) : opened.following = 0 := by
  induction joined generalizing f name opened with
  | nil =>
    rw [openJoined.eq_def, if_neg (by simp [hf])] at ho
    cases ho
  | cons letter more ih =>
    rw [openJoined.eq_def, if_neg (by simp [hf])] at ho
    dsimp only at ho
    cases hnext : clusterNext? g name letter with
    | none =>
      rw [hnext] at ho
      cases ho
    | some next =>
      have hmark : next.takesValue = false := by
        unfold clusterNext? at hnext
        split_ifs at hnext
        exact hg _ (mem_flags_of_flag? hnext)
      have hlast : ∀ {e : Except Fault Opened}, (∀ o, e = .ok o → o.following = 0) →
          (do let o ← e; return { o with uses := ⟨f, none⟩ :: o.uses }) = .ok opened →
          opened.following = 0 := by
        intro e he ho
        obtain ⟨o, hopened, ho⟩ := Except.bind_eq_ok.1 ho
        cases ho
        exact he o hopened
      rw [hnext] at ho
      dsimp only at ho
      split_ifs at ho
      · exact hlast (fun o => openAlone_following hmark) ho
      · exact hlast (fun o => ih hmark) ho

theorem takeToken_following (hg : ∀ f ∈ g.flags, f.takesValue = false) (ht : t.Alone)
    {following : Nat} (hm : takeToken g t rest = .ok (taken, following)) : following = 0 := by
  obtain ⟨opened, bindings, hopened, -, -, rfl⟩ := takeToken_ok hm
  unfold openToken at hopened
  split at hopened
  · rename_i s hs
    unfold openOption at hopened
    split at hopened
    · exact openAlone_following (ht s hs) hopened
    · exact openJoined_following hg (ht s hs) hopened
  · cases hopened
    rfl

/-! Where no place waits: what is bound is options alone, and every argument is left over. -/

theorem flag_of_bind {u : Use} {b : Binding} (hb : u.bind g = .ok b) : ∃ f v, b = .flag f v := by
  unfold Use.bind at hb
  split at hb
  · cases hb
  · cases hb
  · split at hb
    · cases hb
      exact ⟨_, _, rfl⟩
    · split at hb <;> cases hb
      exact ⟨_, _, rfl⟩
  · cases hb
    exact ⟨_, _, rfl⟩
  · cases hb
    exact ⟨_, _, rfl⟩

theorem flags_of_mapM_bind {uses : List Use} {bindings : List Binding}
    (hm : uses.mapM (Use.bind g) = .ok bindings) : ∀ b ∈ bindings, ∃ f v, b = .flag f v := by
  induction uses generalizing bindings with
  | nil =>
    cases hm
    exact nofun
  | cons u uses ih =>
    rw [List.mapM_cons] at hm
    obtain ⟨b, hb, hm⟩ := Except.bind_eq_ok.1 hm
    obtain ⟨rest, hrest, hm⟩ := Except.bind_eq_ok.1 hm
    cases hm
    exact List.forall_mem_cons.2 ⟨flag_of_bind hb, ih hrest⟩

theorem flags_of_takeToken {following : Nat} (hm : takeToken g t rest = .ok (taken, following)) :
    ∀ b ∈ taken.bindings, ∃ f v, b = .flag f v := by
  obtain ⟨opened, bindings, -, hbound, rfl, -⟩ := takeToken_ok hm
  exact flags_of_mapM_bind hbound

theorem matchTokens_unplaced (hm : matchTokens g [] tokens = .ok (taken, left)) :
    left = [] ∧ ∀ b ∈ taken.bindings, ∃ f v, b = .flag f v := by
  induction tokens using induction_options generalizing taken with
  | hplain tokens hp =>
    rw [matchTokens_plain hp rfl] at hm
    cases hm
    exact ⟨rfl, nofun⟩
  | hoption plain t rest hp ho ih =>
    obtain ⟨-, used, following, more, hused, hmore, rfl⟩ | ⟨hn, -⟩ :=
      matchTokens_ok hp ho (ite_self _) hm
    · obtain ⟨hleft, hflags⟩ := ih _ (length_rest_lt plain t rest following) hmore
      refine ⟨hleft, ?_⟩
      change ∀ b ∈ used.bindings ++ more.bindings, _
      exact List.forall_mem_append.2 ⟨flags_of_takeToken hused, hflags⟩
    · exact absurd rfl hn

/-- Arguments for which there is no place are left over. -/
theorem extras_of_plain (hg : ∀ f ∈ g.flags, f.takesValue = false) (ht : ∀ t ∈ tokens, t.Alone)
    (hp : ∃ t ∈ tokens, Place.isPlain t = true)
    (hm : matchTokens g [] tokens = .ok (taken, left)) : taken.extras ≠ [] := by
  induction tokens using induction_options generalizing taken with
  | hplain tokens hall =>
    have hfill : fill [] tokens = ([], [], 0) := rfl
    rw [matchTokens_plain hall hfill] at hm
    cases hm
    obtain ⟨t, htok, -⟩ := hp
    simpa using List.ne_nil_of_mem htok
  | hoption plain t rest hall ho ih =>
    obtain ⟨-, used, following, more, hused, hmore, rfl⟩ | ⟨hn, -⟩ :=
      matchTokens_ok hall ho (ite_self _) hm
    · cases plain with
      | cons u plain => exact nofun
      | nil =>
        -- The option takes nothing behind it, so the argument is still there after it.
        have hfollowing := takeToken_following hg (ht t (by simp)) hused
        subst hfollowing
        have hrest : ∃ t ∈ rest, Place.isPlain t = true := by
          obtain ⟨u, hu, hplain⟩ := hp
          rcases List.mem_cons.1 hu with rfl | hu
          · rw [isPlain_of_isOption ho] at hplain
            cases hplain
          · exact ⟨u, hu, hplain⟩
        have hextras := ih rest (length_rest_lt [] t rest 0) (fun u hu => ht u (by simp [hu])) hrest hmore
        exact List.append_ne_nil_of_right_ne_nil _ hextras
    · exact absurd rfl hn

end ClipActions.Command
