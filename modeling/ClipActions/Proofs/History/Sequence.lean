import ClipActions.Proofs.History.Reading

/-!
Appending again and again. The bytes of the file are followed through a sequence of appends, each on
a host of its own; what can be read in the end is what was stored, the newest first, and behind it
what could be read in the beginning.
-/
namespace ClipActions.History

variable {file l : Path} {d e : Disk} {h k : Host} {c bytes : Bytes} {text : Text}
  {record : Json.Fields} {entry returned : Entry} {halt : Halt} {now : Instant}

-- A path through a directory that is missing leads nowhere, but `..` may lead from that directory, once
-- it is made, to something that is there: hence what is said of an absent file.
/-- What a file holds: its bytes, or none if it is not there, nor when its directory has been made. -/
inductive Holds (file : Path) (d : Disk) : Bytes → Prop where
  | read {c : Bytes} (h : d.read file = .ok c) : Holds file d c
  | absent (hd : d.find? file = .ok none)
      (hm : (d.makeDirectory file.parent).1.find? file = .ok none) : Holds file d []

/-- A file holds some bytes, and takes what is appended to it as a whole or not at all. -/
structure Kept (file : Path) (d : Disk) (c : Bytes) : Prop where
  holds : Holds file d c
  whole : ∀ refusal, d.refusal? (.append file) = some refusal → refusal.written = 0

theorem Holds.contentOrEmpty (hc : Holds file d c) (hl : d.locate file = .ok l) :
    d.contentOrEmpty l = c := by
  unfold Disk.contentOrEmpty
  cases hc with
  | read h =>
    obtain ⟨m, hm, hn⟩ := Disk.read_eq_ok.1 h
    rw [hl] at hm
    cases hm
    rw [hn]
  | absent hd hm =>
    rw [Disk.find?_of_locate hl] at hd
    rw [Except.ok.inj hd]

theorem Holds.makeDirectory (hc : Holds file d c) : Holds file (d.makeDirectory file.parent).1 c := by
  cases hc with
  | read h =>
    have hwide := Disk.makeDirectory_widened d file.parent
    obtain ⟨l, hl, hn⟩ := Disk.read_eq_ok.1 h
    exact .read (Disk.read_eq_ok.2 ⟨l, Disk.locate_of_within hwide.within hl, hwide.file hn⟩)
  | absent hd hm =>
    refine .absent hm ?_
    rw [Disk.makeDirectory_again]
    exact hm

/-- What a file holds is what stands where one more record would go. -/
theorem Writable.contentOrEmpty (hw : Writable file l d) (hc : Holds file d c) :
    d.contentOrEmpty l = c := by
  obtain ⟨hl, -⟩ := Disk.appendable_eq_ok.1 hw.place
  rw [← (Disk.makeDirectory_widened d file.parent).contentOrEmpty l]
  exact hc.makeDirectory.contentOrEmpty hl

namespace Kept

theorem makeDirectory (hk : Kept file d c) : Kept file (d.makeDirectory file.parent).1 c :=
  ⟨hk.holds.makeDirectory, fun refusal hr =>
    hk.whole refusal ((Disk.makeDirectory_widened d file.parent).refusal? ▸ hr)⟩

theorem put (hk : Kept file d c) (hplace : d.appendable file = .ok l) :
    Kept file (d.put l (.file (d.contentOrEmpty l ++ bytes))) (c ++ bytes) := by
  obtain ⟨hl, hn⟩ := Disk.appendable_eq_ok.1 hplace
  have hadded := added_put (.refl d) hn bytes
  have hput := Disk.node?_put_self d (.file (d.contentOrEmpty l ++ bytes)) hn
  refine ⟨.read (Disk.read_eq_ok.2 ⟨l, Disk.locate_of_within hadded.within hl, ?_⟩), ?_⟩
  · rw [hput, hk.holds.contentOrEmpty hl]
  · intro refusal hr
    rw [Disk.refusal?_put] at hr
    exact hk.whole refusal hr

theorem append (hk : Kept file d c) (ha : (d.append file bytes).2 = none) :
    Kept file (d.append file bytes).1 (c ++ bytes) := by
  obtain ⟨l, hplace, hallowed⟩ := Disk.append_eq_none ha
  rw [Disk.append_of_appendable hplace hallowed]
  exact hk.put hplace

/-- An append that fails has written nothing. -/
theorem append_failed (hk : Kept file d c) {f : Failure} (ha : (d.append file bytes).2 = some f) :
    (d.append file bytes).1 = d := by
  unfold Disk.append at ha ⊢
  cases hplace : d.appendable file with
  | error f => rfl
  | ok l =>
    rw [hplace] at ha
    dsimp only at ha ⊢
    cases hr : d.refusal? (.append file) with
    | some refusal => exact if_pos (hk.whole refusal hr)
    | none =>
      rw [hr] at ha
      cases ha

end Kept

/-! One append. -/

theorem appendJob_ok (hk : Kept file h.disk c) (hr : (Job.append file bytes).result h = (.ok (), k)) :
    Kept file k.disk (c ++ bytes) := by
  obtain ⟨ha, rfl⟩ := Job.change_ok hr
  exact hk.append ha

theorem appendJob_error (hk : Kept file h.disk c)
    (hr : (Job.append file bytes).result h = (.error halt, k)) : Kept file k.disk c := by
  unfold Job.append at hr
  rw [Job.result_change] at hr
  split at hr
  · cases hr
  · rename_i f hf
    cases hr
    dsimp only
    rw [hk.append_failed hf]
    exact hk

theorem makeDirectoryJob (hk : Kept file h.disk c) :
    Kept file ((Job.makeDirectory file.parent).result h).2.disk c := by
  unfold Job.makeDirectory
  rw [Job.result_change]
  split <;> exact hk.makeDirectory

theorem writeLine_ok (hk : Kept file h.disk c) (hr : (writeLine file text).result h = (.ok (), k)) :
    ∃ bytes, Utf8.encode? text = some bytes ∧ Kept file k.disk (c ++ bytes) := by
  unfold writeLine at hr
  obtain ⟨_, m, hmade, hr⟩ := Job.bind_ok hr
  have hm : Kept file m.disk c := by simpa [hmade] using makeDirectoryJob hk
  cases hb : Utf8.encode? text with
  | some bytes =>
    rw [hb] at hr
    exact ⟨bytes, rfl, appendJob_ok hm hr⟩
  | none =>
    obtain ⟨o, ho⟩ := Utf8.obstacle?_of_encode?_eq_none hb
    rw [hb, ho] at hr
    obtain ⟨-, m', -, hr⟩ := Job.bind_ok hr
    cases hr

theorem writeLine_error (hk : Kept file h.disk c)
    (hr : (writeLine file text).result h = (.error halt, k)) : Kept file k.disk c := by
  unfold writeLine at hr
  have hmade := makeDirectoryJob hk
  rcases Job.bind_error hr with hr | ⟨_, m, hm, hr⟩
  · rwa [hr] at hmade
  · rw [hm] at hmade
    cases hb : Utf8.encode? text with
    | some bytes =>
      rw [hb] at hr
      exact appendJob_error hmade hr
    | none =>
      obtain ⟨o, ho⟩ := Utf8.obstacle?_of_encode?_eq_none hb
      rw [hb, ho] at hr
      rcases Job.bind_error hr with hr | ⟨_, m', hm', hr⟩
      · exact appendJob_error hmade hr
      · -- Nothing has been appended to the file, which may be new.
        cases hr
        simpa using appendJob_ok hmade hm'

section

variable [Runtime]

theorem store_ok {r : Entry} (hr : (store file r).result h = (.ok (), k)) :
    ∃ text, line r = .ok text ∧ (writeLine file text).result h = (.ok (), k) := by
  unfold store at hr
  cases hline : line r with
  | ok text =>
    rw [hline] at hr
    exact ⟨text, rfl, hr⟩
  | error f =>
    rw [hline] at hr
    cases hr

theorem store_error {r : Entry} (hk : Kept file h.disk c)
    (hr : (store file r).result h = (.error halt, k)) : Kept file k.disk c := by
  unfold store at hr
  cases hline : line r with
  | ok text =>
    rw [hline] at hr
    exact writeLine_error hk hr
  | error f =>
    rw [hline] at hr
    cases hr
    exact hk

/-- An append that fails leaves the bytes of the file as they are. -/
theorem append_error (hk : Kept file h.disk c)
    (hr : (append file entry).result h = (.error halt, k)) : Kept file k.disk c := by
  obtain ⟨id, drawn, -, hcomplete⟩ := result_complete entry h
  unfold append at hr
  rw [Job.result_bind_ok hcomplete] at hr
  rcases Job.bind_error hr with hr | ⟨_, m, -, hr⟩
  · obtain ⟨e, he, -⟩ := Job.handle_fail_error hr
    exact store_error (h := { h with drawn }) hk he
  · cases hr

/-- An append that succeeds adds the line of the completed record. -/
theorem append_ok (hk : Kept file h.disk c)
    (hr : (append file (Value.ofJsonFields record)).result h = (.ok returned, k)) :
    ∃ r line, returned = Value.ofJsonFields r ∧ Completes record h.now r ∧
      (Json.obj r).nesting ≤ Runtime.jsonDepth ∧ Utf8.encode? (Json.obj r).write = some line ∧
      Kept file k.disk (c ++ (line ++ [10])) := by
  obtain ⟨r, drawn, hcompletes, hcomplete⟩ := result_complete_record record h
  unfold append at hr
  rw [Job.result_bind_ok hcomplete] at hr
  obtain ⟨_, m, hstore, hr⟩ := Job.bind_ok hr
  cases hr
  obtain ⟨text, htext, hwrite⟩ := store_ok (Job.handle_fail_ok hstore)
  rw [line_ofJsonFields] at htext
  split at htext
  · cases htext
  · rename_i hn
    cases htext
    obtain ⟨bytes, hb, hkept⟩ := writeLine_ok (h := { h with drawn }) hk hwrite
    obtain ⟨line, feed, hline, hfeed, rfl⟩ := Utf8.encode?_append_eq_some.1 hb
    cases hfeed
    refine ⟨r, line, rfl, hcompletes, ?_, hline, hkept⟩
    rw [Json.nesting]
    omega

end

/-- A plain record stays plain when it is completed. -/
theorem Completes.isPlain {r : Json.Fields} (h : Completes record now r)
    (hp : (Json.obj record).isPlain = true) : (Json.obj r).isPlain = true := by
  have hpresent : ∀ name j, present? record name = some j → j.isPlain = true := by
    intro name j hj
    obtain ⟨hfind, -⟩ := Option.filter_eq_some_iff.1 hj
    exact Json.isPlain_of_find? (Json.isPlain_obj.1 hp).2 hfind
  obtain ⟨id, hid, rfl⟩ := h
  have hplain : id.isPlain = true := by
    rcases hid with hid | ⟨-, numbers, rfl⟩
    · exact hpresent "id" id hid
    · rfl
  apply Json.isPlain_put (Json.isPlain_put hp hplain)
  cases ht : present? record "timestamp" with
  | some time => exact hpresent "timestamp" time ht
  | none => rfl

/-! Reading at any point. -/

/-- As many of some records as a limit allows. -/
def within (allowed : Option Nat) (all : List Record) : List Record :=
  match allowed with
  | some n => all.take n
  | none => all

section

variable [Runtime]

theorem result_read (hc : Holds file h.disk c) {limit : Json} {allowed : Option Nat}
    (hl : allowed? limit = .ok allowed) :
    ((read limit file).result h).1 = (readable c).map (within allowed) := by
  cases hc with
  | read hr =>
    obtain ⟨l, hloc, hn⟩ := Disk.read_eq_ok.1 hr
    have hthere := Job.result_somethingAt (Disk.find?_of_locate hloc)
    rw [hn] at hthere
    have hall := result_readAll hr
    unfold read
    rw [Job.result_bind_ok hthere, if_pos Option.isSome_some, Job.result_bind]
    cases ha : (readAll file).result h with
    | mk a m =>
      rw [ha] at hall
      dsimp only at hall
      subst hall
      cases readable c with
      | error e => rfl
      | ok all =>
        dsimp only
        rw [hl, Job.result_bind_ok (Job.result_check_ok allowed m)]
        cases allowed <;> rfl
  | absent hd hm =>
    unfold read
    rw [Job.result_bind_ok (Job.result_somethingAt hd)]
    cases allowed with
    | none => rfl
    | some n =>
      show Except.ok [] = Except.ok (List.take n [])
      rw [List.take_nil]

theorem result_readEvery (hc : Holds file h.disk c) :
    ((read .null file).result h).1 = readable c := by
  rw [result_read hc rfl]
  cases readable c <;> rfl

/-! Sequences of appends. -/

/-- A record that has been stored: what was given, when, and what came back. -/
structure Stored where
  entry : Json.Fields
  now : Instant
  returned : Entry

/-- One append after another, each on a host with the disk that the last one left; with what has been
stored, the newest first. -/
inductive Appends (file : Path) (d : Disk) : List Stored → Disk → Prop where
  | start : Appends file d [] d
  | stored {ss : List Stored} {h k : Host} {record : Json.Fields} {returned : Entry}
      (before : Appends file d ss h.disk) (hp : (Json.obj record).isPlain = true)
      (hr : (append file (Value.ofJsonFields record)).result h = (.ok returned, k)) :
      Appends file d (⟨record, h.now, returned⟩ :: ss) k.disk
  | refused {ss : List Stored} {h k : Host} {entry : Entry} {halt : Halt}
      (before : Appends file d ss h.disk)
      (hr : (append file entry).result h = (.error halt, k)) :
      Appends file d ss k.disk

/-- The record that is read for what was stored. -/
def Stored.Is (s : Stored) (r : Record) : Prop :=
  s.returned = Value.ofJsonFields r ∧ Completes s.entry s.now r

/-- The bytes after a sequence of appends, and what can be read from them. -/
theorem Appends.kept {ss : List Stored} (ha : Appends file d ss e) (hk : Kept file d c)
    (hc : Closed c) : ∃ rs c', List.Forall₂ Stored.Is ss rs ∧ Kept file e c' ∧ Closed c' ∧
      c'.count 10 = c.count 10 + ss.length ∧ readable c' = (readable c).map (rs ++ ·) := by
  induction ha with
  | start =>
    refine ⟨[], c, .nil, hk, hc, rfl, ?_⟩
    cases readable c <;> rfl
  | @stored ss h k record returned before hp hr ih =>
    obtain ⟨rs, c', hrs, hk', hc', hcount, hread⟩ := ih
    obtain ⟨r, line, hreturned, hcompletes, hn, hline, hkept⟩ := append_ok hk' hr
    have hplain := hcompletes.isPlain hp
    have hten : 10 ∉ line :=
      Utf8.ten_notMem_encode? (fun s hs => (Json.shownFrom_write _ s hs).1) hline
    refine ⟨r :: rs, _, .cons ⟨hreturned, hcompletes⟩ hrs, hkept,
      .inr ⟨c' ++ line, by rw [List.append_assoc]⟩, ?_, ?_⟩
    · rw [List.count_append, List.count_append, List.count_eq_zero.2 hten, hcount]
      simp
      omega
    · rw [readable_added hc' hplain hn hline, hread]
      cases readable c <;> rfl
  | @refused ss h k entry halt before hr ih =>
    obtain ⟨rs, c', hrs, hk', hc', hcount, hread⟩ := ih
    exact ⟨rs, c', hrs, append_error hk' hr, hc', hcount, hread⟩

/-- After any sequence of appends the records stored are read, the newest first, in front of what was
read before; each of them has added one line feed to the file. -/
theorem read_appends {ss : List Stored} (hk : Kept file d c) (hc : Closed c)
    (ha : Appends file d ss e) : ∃ rs c', List.Forall₂ Stored.Is ss rs ∧ Kept file e c' ∧
      Closed c' ∧ c'.count 10 = c.count 10 + ss.length ∧ ∀ h k : Host, h.disk = d → k.disk = e →
        ((read .null file).result k).1 = ((read .null file).result h).1.map (rs ++ ·) ∧
        (∀ n : Nat, ((read (.int n) file).result k).1 =
          ((read .null file).result k).1.map (·.take n)) ∧
        ∀ n : Int, n < 0 → ((read (.int n) file).result k).1 = ((read .null file).result k).1 := by
  obtain ⟨rs, c', hrs, hk', hc', hcount, hread⟩ := ha.kept hk hc
  refine ⟨rs, c', hrs, hk', hc', hcount, fun h k hd he => ?_⟩
  subst hd he
  rw [result_readEvery hk'.holds, result_readEvery hk.holds]
  have hsome (n : Nat) : allowed? (.int n) = .ok (some n) := rfl
  refine ⟨hread, fun n => result_read hk'.holds (hsome n), fun n hn => ?_⟩
  obtain ⟨m, rfl⟩ := Int.eq_negSucc_of_lt_zero hn
  rw [result_read hk'.holds rfl]
  cases readable c' <;> rfl

end

def emptyHost : Host where
  now := ⟨0⟩
  agent := .serving []
  target := .nowhere

theorem emptyHost_makeDirectory :
    emptyHost.disk.makeDirectory (Path.parent "h.jsonl") = ({}, none) := by
  unfold Disk.makeDirectory
  exact Disk.makeAll_of_ok rfl

theorem kept_emptyHost : Kept "h.jsonl" emptyHost.disk [] := by
  refine ⟨.absent rfl ?_, nofun⟩
  rw [emptyHost_makeDirectory]
  rfl

/-- A host that has some bytes for its history. -/
def keeping (c : Bytes) : Host :=
  { emptyHost with disk := { nodes := [("h.jsonl", .file c)] } }

theorem holds_keeping (c : Bytes) : Holds "h.jsonl" (keeping c).disk c := .read rfl

theorem kept_keeping (c : Bytes) : Kept "h.jsonl" (keeping c).disk c := ⟨holds_keeping c, nofun⟩

/-- The bytes of an object without fields, which is a record. -/
def bare : Bytes := [123, 125]

theorem readable_bare : readable bare = .ok [[]] := by
  rw [readable_text (t := "\x7b\x7d") (by decide) rfl]
  rfl

section

variable [Runtime]

/-- The append of a record with a text. -/
def noted (t : Text) (h : Host) : Except Halt Entry × Host :=
  (append "h.jsonl" (Value.ofJsonFields [("text", .str t)])).result h

theorem noted_ok {t : Text} (hs : (noted t h).1.isOk = true) :
    ∃ entry, noted t h = (.ok entry, (noted t h).2) := by
  cases hr : (noted t h).1 with
  | ok entry => exact ⟨entry, Prod.ext hr rfl⟩
  | error halt =>
    rw [hr] at hs
    cases hs

theorem noted_error {t : Text} (hs : (noted t h).1.isOk = false) :
    ∃ halt, noted t h = (.error halt, (noted t h).2) := by
  cases hr : (noted t h).1 with
  | ok entry =>
    rw [hr] at hs
    cases hs
  | error halt => exact ⟨halt, Prod.ext hr rfl⟩

end

/-- Two records behind one without fields. -/
theorem read_appends_two : ∃ (s t : Stored) (r q : Record) (k : Host),
    s.entry = ([("text", .str "hi")] : Json.Fields) ∧ s.Is r ∧
    t.entry = ([("text", .str "yo")] : Json.Fields) ∧ t.Is q ∧
    Appends "h.jsonl" (keeping (bare ++ [10])).disk [t, s] k.disk ∧
    ((read .null "h.jsonl").result k).1 = .ok [q, r, []] ∧
    ((read (.int 1) "h.jsonl").result k).1 = .ok [q] := by
  obtain ⟨first, hfirst⟩ := noted_ok (t := "hi") (h := keeping (bare ++ [10])) (by decide +kernel)
  obtain ⟨second, hsecond⟩ := noted_ok (t := "yo") (h := (noted "hi" (keeping (bare ++ [10]))).2)
    (by decide +kernel)
  have ha := Appends.stored (.stored .start rfl hfirst) rfl hsecond
  obtain ⟨rs, -, hrs, -, -, -, hread⟩ := read_appends (kept_keeping (bare ++ [10]))
    (.inr ⟨bare, rfl⟩) ha
  obtain ⟨hall, hlimit, -⟩ := hread (keeping (bare ++ [10])) _ rfl rfl
  have hbare : readable (bare ++ [10]) = .ok [[]] := by
    rw [readable_closed (t := "\x7b\x7d") (by decide) rfl]
    rfl
  rw [result_readEvery (holds_keeping _), hbare] at hall
  cases hrs with
  | cons hq hrs =>
    cases hrs with
    | cons hr hnil =>
      cases hnil
      refine ⟨_, _, _, _, _, rfl, hr, rfl, hq, ha, hall, (hlimit 1).trans ?_⟩
      rw [hall]
      rfl

end ClipActions.History
