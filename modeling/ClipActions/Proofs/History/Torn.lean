import ClipActions.Proofs.History.Sequence
import ClipActions.Proofs.Json.Torn

/-!
An append whose write stops on its way. What has come to the file of its line is passed over, but the
next record is appended to the same line, which then holds no document: that record is lost too.
-/
namespace ClipActions.History

open Text (Cut)

variable {file l : Path} {d e : Disk} {h k : Host} {c p line bytes : Bytes} {u text : Text}
  {record r fields next : Json.Fields} {halt : Halt} {now : Instant} {refusal : Disk.Refusal}

/-! What the write leaves. -/

/-- The disk, where what is appended to a file stops on the way. -/
def stopping (d : Disk) (file : Path) (refusal : Disk.Refusal) : Disk :=
  d.refusing fun use => if use = .append file then some refusal else d.refusal? use

theorem stopping_makeDirectory (d : Disk) (file q : Path) (refusal : Disk.Refusal) :
    (stopping d file refusal).makeDirectory q =
      (stopping (d.makeDirectory q).1 file refusal, (d.makeDirectory q).2) := by
  unfold stopping
  rw [Disk.makeDirectory_refusing (if_neg (by simp)), (Disk.makeDirectory_widened d q).refusal?]

/-- Of the bytes some have come to the file, or none. -/
theorem appendJob_torn (hk : Kept file d c) (hd : h.disk = stopping d file refusal)
    (hr : (Job.append file bytes).result h = (.error halt, k)) :
    ∃ p, Kept file (k.disk.refusing d.refusal?) (c ++ p) ∧
      (p = [] ∨ p = bytes.take refusal.written ∧ halt = .failed (.os refusal.fault)) := by
  have hkept : Kept file ((stopping d file refusal).refusing d.refusal?) (c ++ []) := by
    rw [List.append_nil]
    exact hk
  have hrefusal : (stopping d file refusal).refusal? (.append file) = some refusal := if_pos rfl
  unfold Job.append at hr
  rw [Job.result_change, hd, Disk.append, hrefusal] at hr
  have hplace : (stopping d file refusal).appendable file = d.appendable file := rfl
  rw [hplace] at hr
  cases ha : d.appendable file with
  | error f =>
    rw [ha] at hr
    cases hr
    exact ⟨[], hkept, .inl rfl⟩
  | ok l =>
    rw [ha] at hr
    cases hr
    dsimp only
    split
    · exact ⟨[], hkept, .inl rfl⟩
    · refine ⟨_, ?_, .inr ⟨rfl, rfl⟩⟩
      have hput : ((stopping d file refusal).put l
          (.file ((stopping d file refusal).contentOrEmpty l ++ bytes.take refusal.written))).refusing
            d.refusal? = d.put l (.file (d.contentOrEmpty l ++ bytes.take refusal.written)) := by
        unfold stopping
        rw [Disk.put_refusing]
        have := Disk.refusal?_put d l (.file (d.contentOrEmpty l ++ bytes.take refusal.written))
        rw [← this]
        rfl
      rw [hput]
      exact hk.put ha

theorem writeLine_torn (hk : Kept file d c) (hd : h.disk = stopping d file refusal)
    (hr : (writeLine file text).result h = (.error halt, k)) :
    ∃ p, Kept file (k.disk.refusing d.refusal?) (c ++ p) ∧
      (p = [] ∨ ∃ bytes, Utf8.encode? text = some bytes ∧ p = bytes.take refusal.written ∧
        halt = .failed (.os refusal.fault)) := by
  have hrefusal := (Disk.makeDirectory_widened d file.parent).refusal?
  have hmade := hk.makeDirectory
  have hdir : (Job.makeDirectory file.parent).result h = _ := Job.result_change _ h
  rw [hd, stopping_makeDirectory] at hdir
  unfold writeLine at hr
  cases hf : (d.makeDirectory file.parent).2 with
  | some f =>
    simp only [hf] at hdir
    rw [Job.result_bind_error hdir] at hr
    cases hr
    refine ⟨[], ?_, .inl rfl⟩
    rw [List.append_nil, ← hrefusal]
    exact hmade
  | none =>
    simp only [hf] at hdir
    rw [Job.result_bind_ok hdir] at hr
    generalize hm : ({ h with disk := _ } : Host) = m at hr
    have hdisk : m.disk = stopping (d.makeDirectory file.parent).1 file refusal := by
      rw [← hm]
    rw [← hrefusal]
    cases hb : Utf8.encode? text with
    | some bytes =>
      rw [hb] at hr
      obtain ⟨p, hkept, hp⟩ := appendJob_torn hmade hdisk hr
      exact ⟨p, hkept, hp.imp id fun hp => ⟨bytes, rfl, hp⟩⟩
    | none =>
      rw [hb] at hr
      rcases Job.bind_error hr with ha | ⟨_, m', ha, -⟩
      · obtain ⟨p, hkept, hp⟩ := appendJob_torn hmade hdisk ha
        exact ⟨p, hkept, .inl (hp.elim id fun hp => by rw [hp.1, List.take_nil])⟩
      · obtain ⟨-, -, hallowed⟩ := Disk.append_eq_none (Job.change_ok ha).1
        rw [hdisk] at hallowed
        cases (if_pos rfl).symm.trans hallowed

section

variable [Runtime]

/-- An append on such a disk is reported as a failure to write the history if it comes to writing. -/
theorem append_torn (hk : Kept file d c) (hd : h.disk = stopping d file refusal)
    (hr : (append file (Value.ofJsonFields record)).result h = (.error halt, k)) :
    ∃ r p, Completes record h.now r ∧ Kept file (k.disk.refusing d.refusal?) (c ++ p) ∧
      (p = [] ∨ ∃ line, (Json.obj r).nesting ≤ Runtime.jsonDepth ∧
        Utf8.encode? (Json.obj r).write = some line ∧ p = (line ++ [10]).take refusal.written ∧
        halt = .failed (.historyWrite file.text (Failure.os refusal.fault).message)) := by
  obtain ⟨r, drawn, hcompletes, hcomplete⟩ := result_complete_record record h
  refine ⟨r, ?_⟩
  unfold append at hr
  rw [Job.result_bind_ok hcomplete] at hr
  rcases Job.bind_error hr with hr | ⟨_, m, -, hr⟩
  · obtain ⟨e, he, hreport⟩ := Job.handle_fail_error hr
    unfold store at he
    rw [line_ofJsonFields] at he
    by_cases hn : Runtime.jsonDepth ≤ Json.fieldNesting r
    · rw [if_pos hn] at he
      cases he
      refine ⟨[], hcompletes, ?_, .inl rfl⟩
      rw [List.append_nil, hd]
      exact hk
    · rw [if_neg hn] at he
      obtain ⟨p, hkept, hp⟩ := writeLine_torn (h := { h with drawn }) hk hd he
      refine ⟨p, hcompletes, hkept, hp.imp id ?_⟩
      rintro ⟨bytes, hb, rfl, rfl⟩
      obtain ⟨line, feed, hline, hfeed, rfl⟩ := Utf8.encode?_append_eq_some.1 hb
      cases hfeed
      refine ⟨line, ?_, hline, rfl, hreport _ rfl⟩
      rw [Json.nesting]
      omega
  · cases hr

/-! What is read of a torn line. -/

theorem readLine_error {fault : Json.Fault} (ht : text ≠ []) (hr : Json.read text = .error fault)
    {raw : Text} (hraw : raw.trim = text) : readLine raw = .error fault := by
  have hsome : text.isEmpty = false := by
    cases text with
    | nil => exact absurd rfl ht
    | cons s t => rfl
  unfold readLine
  simp only [hraw, hsome, hr]
  rfl

/-- Part of the line of a record, with nothing behind it. -/
theorem readLine_cut (h : Cut (Json.obj r).write u) (hu : u ≠ [])
    (hn : (Json.obj r).nesting ≤ Runtime.jsonDepth) :
    ∃ fault, readLine u = .error fault ∧ fault.problem.tooDeep? = none := by
  rcases h.cons (by decide) with rfl | ⟨v, rfl, -⟩
  · exact absurd rfl hu
  obtain ⟨w, htrim, hw⟩ := Text.trim_cons (s := .char '\x7b') (by decide) v
  have hcut := h.of_prefix (List.cons_prefix_cons.2 ⟨rfl, hw⟩)
  have htorn : Json.Torn r [] (.char '\x7b' :: w) := .part hcut nofun
  obtain ⟨fault, hr, hd⟩ := htorn.read Json.next_nil hn
  rw [List.append_nil] at hr
  exact ⟨fault, readLine_error (List.cons_ne_nil _ _) hr htrim, hd⟩

/-- What is left of the line of a record, with the line of another one behind it. -/
theorem readLine_joined (h : Json.Torn r (Json.obj next).write u)
    (hoff : ∀ f ∈ next.head?, Json.Off f.1)
    (hn : (Json.obj r).nesting + (Json.obj next).nesting ≤ Runtime.jsonDepth) :
    ∃ fault, readLine (u ++ (Json.obj next).write) = .error fault ∧
      fault.problem.tooDeep? = none := by
  obtain ⟨fault, hr, hd⟩ := h.read (Json.next_write hoff) hn
  obtain ⟨v, rfl⟩ := h.eq_cons
  obtain ⟨middle, hmiddle⟩ := writeFields_concat next
  have hlast : (Json.obj next).write = .char '\x7b' :: middle ++ [.char '\x7d'] := by
    rw [Json.write, Json.writeWith, hmiddle]
    rfl
  refine ⟨fault, readLine_error ?_ hr ?_, hd⟩
  · simp
  · refine Text.trim_eq_self (fun s hs => ?_) fun s hs => ?_
    · cases hs
      decide
    · rw [hlast, ← List.append_assoc, List.getLast?_concat] at hs
      cases hs
      decide

end

/-- What is read of some bytes of a record's line, wherever they stop. -/
theorem decode_piece (hline : Utf8.encode? (Json.obj r).write = some line) (hp : p <+: line)
    (hne : p ≠ []) : ∃ u, (∀ next, next ≠ [] → Json.Torn r next u) ∧ (∀ s ∈ u, 0x20 ≤ s.code) ∧
      (if p = line then u = (Json.obj r).write else Cut (Json.obj r).write u ∧ u ≠ []) ∧
      ∀ rest : Bytes, (∀ b ∈ rest.head?, b.toNat < 0x80) →
        Utf8.decode (p ++ rest) = u ++ Utf8.decode rest := by
  have hshown : ∀ s ∈ (Json.obj r).write, 0x20 ≤ s.code :=
    fun s hs => (Json.shownFrom_write _ s hs).1
  by_cases hall : p = line
  · subst hall
    refine ⟨_, fun next hn => .whole hn, hshown, by rw [if_pos rfl], fun rest _ => ?_⟩
    exact Utf8.decode_append hline rest
  · obtain ⟨q, rfl⟩ := hp
    have hq : q ≠ [] := fun hq => hall (by rw [hq, List.append_nil])
    obtain ⟨u, hu, hnil, hread⟩ := Utf8.decode_part hline rfl hq
    refine ⟨u, fun next _ => .part hu (hnil hne), fun s hs => ?_, ?_, hread⟩
    · rcases hu.mem hs with hs | rfl
      · exact hshown s hs
      · decide
    · rw [if_neg hall]
      exact ⟨hu, hnil hne⟩

section

variable [Runtime]

/-- A torn line is passed over as long as nothing stands behind it, and read if only its line feed is
missing. -/
theorem readable_piece (hc : Closed c) (hplain : (Json.obj r).isPlain = true)
    (hn : (Json.obj r).nesting ≤ Runtime.jsonDepth)
    (hline : Utf8.encode? (Json.obj r).write = some line) (hp : p <+: line) (hne : p ≠ []) :
    readable (c ++ p) = (readable c).map ((if p = line then [r] else []) ++ ·) := by
  obtain ⟨u, -, hshown, hu, hread⟩ := decode_piece hline hp hne
  have htext : Utf8.decode p = u := by
    have := hread [] nofun
    rw [List.append_nil] at this
    rw [this]
    exact List.append_nil u
  rw [readable_behind hc.opens, readable_text (Text.not_endsLine hshown) htext]
  by_cases hall : p = line
  · rw [if_pos hall] at hu
    subst hu
    rw [if_pos hall, outcome_line (readLine_write hplain hn), followed_of_ok]
    rfl
  · rw [if_neg hall] at hu
    obtain ⟨fault, hr, hd⟩ := readLine_cut hu.1 hu.2 hn
    rw [if_neg hall, outcome_faulty hr hd, followed_of_ok]

/-- The record that is appended to a torn line is lost with it. -/
theorem readable_joined {line' : Bytes} (hc : Closed c)
    (hline : Utf8.encode? (Json.obj r).write = some line) (hp : p <+: line) (hne : p ≠ [])
    (hline' : Utf8.encode? (Json.obj next).write = some line')
    (hoff : ∀ f ∈ next.head?, Json.Off f.1)
    (hn : (Json.obj r).nesting + (Json.obj next).nesting ≤ Runtime.jsonDepth) :
    readable (c ++ p ++ (line' ++ [10])) = readable c := by
  obtain ⟨u, htorn, hshown, -, hread⟩ := decode_piece hline hp hne
  obtain ⟨fault, hr, hd⟩ := readLine_joined (htorn _ (by simp [Json.write, Json.writeWith])) hoff hn
  have hhead : ∀ b ∈ (line' ++ [10]).head?, b.toNat < 0x80 := by
    obtain ⟨more, -, rfl⟩ := Option.map_eq_some_iff.1 hline'
    intro b hb
    cases hb
    decide
  have htext : Utf8.decode (p ++ (line' ++ [10])) = u ++ (Json.obj next).write ++ [.char '\n'] := by
    rw [hread _ hhead, Utf8.decode_append hline', List.append_assoc]
    rfl
  have hplain : ∀ s ∈ u ++ (Json.obj next).write, 0x20 ≤ s.code := by
    intro s hs
    rcases List.mem_append.1 hs with hs | hs
    · exact hshown s hs
    · exact (Json.shownFrom_write _ s hs).1
  rw [List.append_assoc, readable_behind hc.opens, readable_closed hplain htext, outcome_faulty hr hd,
    none_followed]

end

/-! Sequences of appends with a torn one among them. -/

theorem Completes.nesting_le (h : Completes record now r) :
    (Json.obj r).nesting ≤ (Json.obj record).nesting := by
  have hpresent : ∀ name j, present? record name = some j → j.nesting ≤ Json.fieldNesting record :=
    fun name j hj => Json.nesting_of_find? (Option.filter_eq_some_iff.1 hj).1
  obtain ⟨id, hid, rfl⟩ := h
  have hdeep : id.nesting ≤ Json.fieldNesting record := by
    rcases hid with hid | ⟨-, numbers, rfl⟩
    · exact hpresent "id" id hid
    · exact Nat.zero_le _
  simp only [Json.nesting, Nat.add_le_add_iff_right]
  refine Json.fieldNesting_put _ _ _ (Json.fieldNesting_put _ _ _ (Nat.le_refl _) hdeep) ?_
  cases ht : present? record "timestamp" with
  | some time => exact hpresent "timestamp" time ht
  | none => exact Nat.zero_le _

theorem off_put {name : Text} (h : ∀ f ∈ fields.head?, Json.Off f.1) (hn : Json.Off name)
    (j : Json) : ∀ f ∈ (fields.put name j).head?, Json.Off f.1 := by
  intro f hf
  cases fields with
  | nil =>
    cases hf
    exact hn
  | cons g fields =>
    have hg := h g rfl
    rw [Json.Fields.put] at hf
    split at hf <;> cases hf <;> exact hg

theorem Completes.off (h : Completes record now r) (ho : ∀ f ∈ record.head?, Json.Off f.1) :
    ∀ f ∈ r.head?, Json.Off f.1 := by
  obtain ⟨id, -, rfl⟩ := h
  have hid : Json.Off "id" := Json.off_cons (by decide) _
  have htime : Json.Off "timestamp" := Json.off_cons (by decide) _
  exact off_put (off_put ho hid id) htime _

section

variable [Runtime]

/-- A record whose line neither goes on another one that is torn off nor is nested too deeply with it:
its first name begins with no mark that may follow a value. -/
structure Apart (torn entry : Json.Fields) : Prop where
  off : ∀ f ∈ entry.head?, Json.Off f.1
  nesting : (Json.obj torn).nesting + (Json.obj entry).nesting ≤ Runtime.jsonDepth

/-- What is read of the records that have been appended to a torn line, the newest first, and of the
record `r` of that line, of which `p` is there. The oldest of the others is lost. -/
def survivors (r : Record) (p : Bytes) (later : List Record) : List Record :=
  match later with
  | [] => if Utf8.encode? (Json.obj r).write = some p then [r] else []
  | _ :: _ => if p = [] then later else later.dropLast

/-- The bytes after a sequence of appends to a torn line: it stays as it is until a record is stored. -/
theorem Appends.torn {ss : List Stored} (ha : Appends file d ss e) (hk : Kept file d (c ++ p))
    (hc : Closed c) (hplain : (Json.obj r).isPlain = true)
    (hn : (Json.obj r).nesting ≤ (Json.obj record).nesting)
    (hdeep : (Json.obj r).nesting ≤ Runtime.jsonDepth)
    (hline : Utf8.encode? (Json.obj r).write = some line) (hp : p <+: line) (hne : p ≠ [])
    (hapart : ∀ s ∈ ss.getLast?, Apart record s.entry) :
    ∃ rs c', List.Forall₂ Stored.Is ss rs ∧ Kept file e c' ∧ (ss = [] → c' = c ++ p) ∧
      (ss ≠ [] → Closed c') ∧ readable c' = (readable c).map (survivors r p rs ++ ·) := by
  induction ha with
  | start =>
    refine ⟨[], _, .nil, hk, fun _ => rfl, fun h => absurd rfl h, ?_⟩
    rw [readable_piece hc hplain hdeep hline hp hne, survivors, hline]
    simp only [Option.some.injEq, eq_comm]
  | @stored ss h k entry returned before hplain' hr ih =>
    have hearlier : ∀ s ∈ ss.getLast?, Apart record s.entry := by
      intro s hs
      cases ss with
      | nil => cases hs
      | cons s' ss => exact hapart s (by rwa [List.getLast?_cons_cons])
    obtain ⟨rs, c', hrs, hk', hnone, hsome, hread⟩ := ih hearlier
    obtain ⟨r', line', hreturned, hcompletes, hn', hline', hkept⟩ := append_ok hk' hr
    refine ⟨r' :: rs, _, .cons ⟨hreturned, hcompletes⟩ hrs, hkept, nofun, fun _ => ?_, ?_⟩
    · exact .inr ⟨c' ++ line', by rw [List.append_assoc]⟩
    cases hrs with
    | nil =>
      -- The torn line is still open: it takes up this record, and both are lost.
      have happart := hapart ⟨entry, h.now, returned⟩ rfl
      have hsum : (Json.obj r).nesting + (Json.obj r').nesting ≤ Runtime.jsonDepth :=
        Nat.le_trans (Nat.add_le_add hn hcompletes.nesting_le) happart.nesting
      rw [hnone rfl, readable_joined hc hline hp hne hline' (hcompletes.off happart.off) hsum,
        survivors, if_neg hne]
      cases readable c <;> rfl
    | @cons s r₁ ss rs hr₁ hrs =>
      rw [readable_added (hsome nofun) (hcompletes.isPlain hplain') hn' hline', hread, survivors,
        survivors, if_neg hne, if_neg hne, List.dropLast_cons_cons]
      cases readable c <;> rfl
  | @refused ss h k entry halt before hr ih =>
    obtain ⟨rs, c', hrs, hk', hnone, hsome, hread⟩ := ih hapart
    exact ⟨rs, c', hrs, append_error hk' hr, hnone, hsome, hread⟩

end

theorem encode?_record_ne_nil : Utf8.encode? (Json.obj r).write ≠ some [] := by
  intro h
  obtain ⟨more, -, hmore⟩ := Option.map_eq_some_iff.1 h
  cases hmore

section

variable [Runtime]

/-- A write that stops on its way costs the record it belongs to and, if it has begun, the record that
is appended next; all others are read, before it and after it, the newest first. -/
theorem read_torn {ss later : List Stored} {d₀ : Disk} (hk : Kept file d₀ c) (hc : Closed c)
    (earlier : Appends file d₀ ss d) (hplain : (Json.obj record).isPlain = true)
    (hd : h.disk = stopping d file refusal)
    (ht : (append file (Value.ofJsonFields record)).result h = (.error halt, k))
    (hpart : ∀ r line, Completes record h.now r → Utf8.encode? (Json.obj r).write = some line →
      refusal.written ≤ line.length)
    (after : Appends file (k.disk.refusing d.refusal?) later e)
    (hapart : ∀ s ∈ later.getLast?, Apart record s.entry) :
    ∃ (r : Record) (p c₁ : Bytes) (rs rs' : List Record), Completes record h.now r ∧
      Kept file d c₁ ∧ Kept file (k.disk.refusing d.refusal?) (c₁ ++ p) ∧
      (p ≠ [] → halt = .failed (.historyWrite file.text (Failure.os refusal.fault).message) ∧
        ∃ line, Utf8.encode? (Json.obj r).write = some line ∧ p = line.take refusal.written) ∧
      List.Forall₂ Stored.Is ss rs ∧ List.Forall₂ Stored.Is later rs' ∧
      ∀ h₀ k₀ : Host, h₀.disk = d₀ → k₀.disk = e → ((read .null file).result k₀).1 =
        ((read .null file).result h₀).1.map (survivors r p rs' ++ rs ++ ·) := by
  obtain ⟨rs, c₁, hrs, hk₁, hc₁, -, hread₁⟩ := earlier.kept hk hc
  obtain ⟨r, p, hcompletes, hkept, hp⟩ := append_torn hk₁ hd ht
  -- Where nothing has come to the file, this is a sequence of appends like any other.
  by_cases hne : p = []
  · subst hne
    have hk' : Kept file (k.disk.refusing d.refusal?) c₁ := by rwa [List.append_nil] at hkept
    obtain ⟨rs', c', hrs', hk', -, -, hread⟩ := after.kept hk' hc₁
    refine ⟨r, [], c₁, rs, rs', hcompletes, hk₁, hkept, fun h => absurd rfl h, hrs, hrs', ?_⟩
    rintro h₀ k₀ rfl rfl
    have hsurvivors : survivors r [] rs' = rs' := by
      cases rs' with
      | nil => exact if_neg encode?_record_ne_nil
      | cons => rw [survivors, if_pos rfl]
    rw [result_readEvery hk'.holds, result_readEvery hk.holds, hread, hread₁, hsurvivors]
    cases readable c <;> simp [Except.map]
  · obtain ⟨line, hdeep, hline, rfl, rfl⟩ := hp.resolve_left hne
    have htake : (line ++ [10]).take refusal.written = line.take refusal.written :=
      List.take_append_of_le_length (hpart r line hcompletes hline)
    rw [htake] at hkept hne
    obtain ⟨rs', c', hrs', hk', -, -, hread⟩ := after.torn hkept hc₁ (hcompletes.isPlain hplain)
      hcompletes.nesting_le hdeep hline (List.take_prefix _ _) hne hapart
    refine ⟨r, _, c₁, rs, rs', hcompletes, hk₁, hkept, fun _ => ⟨rfl, line, hline, rfl⟩, hrs, hrs',
      ?_⟩
    rintro h₀ k₀ rfl rfl
    rw [result_readEvery hk'.holds, result_readEvery hk.holds, hread, hread₁]
    cases readable c <;> simp [Except.map]

end

/-! A write of which one byte has come to the file. -/

/-- A host with room on its disk for one more byte of the history. -/
def fullHost (d : Disk) : Host :=
  { emptyHost with
    disk := stopping d "h.jsonl" ⟨⟨28, "No space left on device", "h.jsonl"⟩, 1⟩ }

def tornAppend : Except Halt Entry × Host := noted "hi" (fullHost {})

def nextAppend : Except Halt Entry × Host :=
  noted "yo" { emptyHost with disk := tornAppend.2.disk.refusing emptyHost.disk.refusal? }

def earlierAppend : Except Halt Entry × Host := noted "ho" emptyHost

def tornBehind : Except Halt Entry × Host := noted "hi" (fullHost earlierAppend.2.disk)

/-- The two appends that follow it. -/
def laterAppends : (Except Halt Entry × Host) × (Except Halt Entry × Host) :=
  let lost := noted "yo" { emptyHost with
    disk := tornBehind.2.disk.refusing earlierAppend.2.disk.refusal? }
  (lost, noted "no" lost.2)

theorem kept_earlierAppend : ∃ entry, earlierAppend = (.ok entry, earlierAppend.2) :=
  noted_ok (by decide +kernel)

/-- A record, a torn one, one that is lost behind it, and one more. -/
theorem read_torn_between : ∃ (s t : Stored) (r q : Record),
    s.entry = ([("text", .str "ho")] : Json.Fields) ∧ s.Is r ∧
    t.entry = ([("text", .str "no")] : Json.Fields) ∧ t.Is q ∧
    (∃ halt, tornBehind.1 = .error halt) ∧ (∃ entry, laterAppends.1.1 = .ok entry) ∧
    ((read .null "h.jsonl").result laterAppends.2.2).1 = .ok [q, r] := by
  obtain ⟨first, hfirst⟩ := kept_earlierAppend
  obtain ⟨halt, ht⟩ : ∃ halt, tornBehind = (.error halt, tornBehind.2) :=
    noted_error (by decide +kernel)
  obtain ⟨lost, hlost⟩ : ∃ entry, laterAppends.1 = (.ok entry, laterAppends.1.2) :=
    noted_ok (by decide +kernel)
  obtain ⟨last, hlast⟩ : ∃ entry, laterAppends.2 = (.ok entry, laterAppends.2.2) :=
    noted_ok (by decide +kernel)
  have hpart : ∀ r line, Completes [("text", .str "hi")] (fullHost earlierAppend.2.disk).now r →
      Utf8.encode? (Json.obj r).write = some line → 1 ≤ line.length := by
    intro r line _ hline
    refine List.length_pos_iff.2 fun hnil => encode?_record_ne_nil (r := r) ?_
    rw [hline, hnil]
  have hlater := Appends.stored (.stored .start rfl hlost) rfl hlast
  have hapart : ∀ s : Stored, s.entry = ([("text", .str "yo")] : Json.Fields) →
      Apart [("text", .str "hi")] s.entry := by
    intro s hs
    have hsum : (Json.obj [("text", .str "hi")]).nesting + (Json.obj [("text", .str "yo")]).nesting ≤
        Runtime.jsonDepth := by decide
    rw [hs]
    exact ⟨fun f hf => by cases hf; exact Json.off_cons (by decide) _, hsum⟩
  obtain ⟨r, p, c, rs, rs', -, hkept, htorn, -, hrs, hrs', hread⟩ := read_torn kept_emptyHost
    (.inl rfl) (.stored .start rfl hfirst) rfl rfl ht hpart hlater fun s hs => hapart s (by cases hs; rfl)
  have hgrown : p ≠ [] := by
    rintro rfl
    rw [List.append_nil] at htorn
    have hlonger : (earlierAppend.2.disk.contentOrEmpty "h.jsonl").length <
        ((tornBehind.2.disk.refusing earlierAppend.2.disk.refusal?).contentOrEmpty "h.jsonl").length := by
      decide +kernel
    have hplace : ∀ d : Disk, d.locate "h.jsonl" = .ok "h.jsonl" := fun _ => rfl
    rw [hkept.holds.contentOrEmpty (hplace _), htorn.holds.contentOrEmpty (hplace _)] at hlonger
    exact Nat.lt_irrefl _ hlonger
  have hall := hread emptyHost _ rfl rfl
  cases hrs with
  | cons hr hnil =>
    cases hnil
    cases hrs' with
    | cons hq hrest =>
      cases hrest with
      | cons _ hnil =>
        cases hnil
        refine ⟨_, _, _, _, rfl, hr, rfl, hq, ⟨halt, by rw [ht]⟩, ⟨lost, by rw [hlost]⟩, ?_⟩
        rw [hall, survivors, if_neg hgrown]
        rfl

/-- Of the record that has been stored behind a torn line nothing is read. -/
theorem read_torn_loses : (∃ halt, tornAppend.1 = .error halt) ∧
    (∃ entry, nextAppend.1 = .ok entry) ∧
      ((read .null "h.jsonl").result nextAppend.2).1 = .ok [] := by
  have hnone : (match ((read .null "h.jsonl").result nextAppend.2).1 with
      | .ok rs => rs.isEmpty
      | .error _ => false) = true := by decide +kernel
  obtain ⟨halt, ht⟩ : ∃ halt, tornAppend = (.error halt, tornAppend.2) :=
    noted_error (by decide +kernel)
  obtain ⟨entry, hnext⟩ : ∃ entry, nextAppend = (.ok entry, nextAppend.2) :=
    noted_ok (by decide +kernel)
  refine ⟨⟨halt, by rw [ht]⟩, ⟨entry, by rw [hnext]⟩, ?_⟩
  cases hr : ((read .null "h.jsonl").result nextAppend.2).1 with
  | ok rs =>
    rw [hr] at hnone
    rw [List.isEmpty_iff.1 hnone]
  | error halt =>
    rw [hr] at hnone
    cases hnone

end ClipActions.History
