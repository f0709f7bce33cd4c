import ClipActions.Plugin.Directory
import ClipActions.Proofs.Json.RoundTrip
import ClipActions.Proofs.Log.Delivery
import ClipActions.Proofs.Text.Order
import ClipActions.Proofs.Text.Splitting
import Mathlib.Data.List.Forall2

/-!
Plugin files stand apart. What a directory gives is what each of its plugin files gives by itself,
in the order of their names, however the directory is listed. A file that gives nothing is told of
once and costs no other file anything.
-/
namespace ClipActions.Plugin

variable {h k : Host} {dir file : Path} {paths : List Path} {entries : List (Text × Node)}
  {load : Text → Path → Export} {index : Nat}

/-! What is said of a plugin file. -/
namespace Refusal

def warning (file : Path) : Refusal → Text
  | .halted h => "Failed to load plugin " ++ file.name ++ ": " ++ h.message
  | .noAction => "Skipping plugin " ++ file.name ++ ": invalid action export"

/-- What the log has of a plugin file that yields no action. -/
def event (file : Path) (r : Refusal) : Log.Event :=
  match r with
  | .halted h =>
    { name := "plugin_load_failed", level := Log.Level.warning
      fields := [
        ("message", .str (Secret.redact (r.warning file))), ("plugin_file", .path file),
        ("error_type", .str h.kind)] }
  | .noAction =>
    { name := "plugin_skipped", level := Log.Level.warning
      fields := [
        ("message", .str (Secret.redact (r.warning file))), ("plugin_file", .path file),
        ("reason", .str "invalid_action_export")] }

/-- One warning to the user, and its event. -/
def Told (now : Instant) (file : Path) (r : Refusal) (es : List Effect) : Prop :=
  ∃ target, es = [
    .complained ("Warning: " ++ Secret.redact (r.warning file) ++ "\n"),
    .logged target Log.Level.warning ((r.event file).record now)]

variable [Runtime]

theorem shallow_event (file : Path) (r : Refusal) : (r.event file).Shallow := by
  cases r <;> exact .of_nestings rfl

end Refusal

section

variable [Runtime]

theorem result_warnRefused (file : Path) (r : Refusal) (h : Host) :
    ∃ es disk target, r.Told h.now file es ∧ (warnRefused file r).result h =
      (.ok (), { h with disk, target, trace := h.trace ++ es }) := by
  have hshallow := r.shallow_event file
  cases r with
  | halted e =>
    obtain ⟨disk, target, hwarn⟩ := Job.result_warn hshallow h
    exact ⟨_, disk, target, ⟨h.target, rfl⟩, hwarn⟩
  | noAction =>
    obtain ⟨disk, target, hwarn⟩ := Job.result_warn hshallow h
    exact ⟨_, disk, target, ⟨h.target, rfl⟩, hwarn⟩

end

/-! One file, and one after the other. -/

/-- A file that yields the same under each private name, and that stops its loading, if it does, by
a failure or by a wish to exit. -/
structure Sound (load : Text → Path → Export) (file : Path) : Prop where
  steady : ∀ name name', load name file = load name' file
  swallowed : ∀ name e, (load name file).halt = some e →
    (∃ f, e = .failed f) ∨ ∃ code message, e = .interrupted (.exit code message)

def found? (load : Text → Path → Export) (file : Path) : Option Action :=
  match judge (load (moduleName 0 file) file) with
  | .ok (.ok a) => some a
  | _ => none

/-- Why a plugin file yields no action by itself. -/
def refused? (load : Text → Path → Export) (file : Path) : Option Refusal :=
  match judge (load (moduleName 0 file) file) with
  | .ok (.error r) => some r
  | _ => none

def refusals (load : Text → Path → Export) (paths : List Path) : List (Path × Refusal) :=
  paths.filterMap fun file => (refused? load file).map (file, ·)

theorem judge_swallowed {e : Export} (he : ∀ x, e.halt = some x →
    (∃ f, x = .failed f) ∨ ∃ code message, x = .interrupted (.exit code message)) :
    ∃ v, judge e = .ok v := by
  unfold judge
  split
  · exact ⟨_, rfl⟩
  · exact ⟨_, rfl⟩
  · rename_i x hfail hexit hx
    rcases he x hx with ⟨f, rfl⟩ | ⟨code, message, rfl⟩
    · exact absurd rfl (hfail f)
    · exact absurd rfl (hexit code message)
  · split
    · exact ⟨_, rfl⟩
    · exact ⟨_, rfl⟩

/-- A sound file yields an action or is refused, under whatever name it is loaded. -/
theorem Sound.cases (hs : Sound load file) (index : Nat) :
    (∃ a, judge (load (moduleName index file) file) = .ok (.ok a) ∧
      found? load file = some a ∧ refused? load file = none) ∨
    ∃ r, judge (load (moduleName index file) file) = .ok (.error r) ∧
      found? load file = none ∧ refused? load file = some r := by
  obtain ⟨v, hv⟩ := judge_swallowed (hs.swallowed (moduleName index file))
  have hzero := hv
  rw [hs.steady _ (moduleName 0 file)] at hzero
  cases v with
  | error r => exact .inr ⟨r, hv, by rw [found?, hzero], by rw [refused?, hzero]⟩
  | ok a => exact .inl ⟨a, hv, by rw [found?, hzero], by rw [refused?, hzero]⟩

section

variable [Runtime]

theorem result_loadFile_ok {a : Action}
    (hj : judge (h.load (moduleName index file) file) = .ok (.ok a)) :
    (loadFile index file).result h = (.ok (some a), h) := by
  unfold loadFile
  rw [Job.result_bind_ok (Job.result_get h), hj]
  rfl

theorem result_loadFile_refused {r : Refusal}
    (hj : judge (h.load (moduleName index file) file) = .ok (.error r)) :
    ∃ es disk target, r.Told h.now file es ∧ (loadFile index file).result h =
      (.ok none, { h with disk, target, trace := h.trace ++ es }) := by
  obtain ⟨es, disk, target, htold, hwarn⟩ := result_warnRefused file r h
  refine ⟨es, disk, target, htold, ?_⟩
  unfold loadFile
  rw [Job.result_bind_ok (Job.result_get h), hj]
  dsimp only
  rw [Job.result_bind_ok hwarn]
  rfl

/-- Each file gives what it gives by itself, and each that is refused is told of once, in turn. -/
theorem result_loadFiles (hs : ∀ file ∈ paths, Sound h.load file) (index : Nat) :
    ∃ told disk target,
      List.Forall₂ (fun p es => p.2.Told h.now p.1 es) (refusals h.load paths) told ∧
      (loadFiles index paths).result h = (.ok (paths.filterMap (found? h.load)),
        { h with disk, target, trace := h.trace ++ told.flatten }) := by
  induction paths generalizing h index with
  | nil => exact ⟨[], h.disk, h.target, .nil, by simp [loadFiles]⟩
  | cons file paths ih =>
    obtain ⟨hfile, hpaths⟩ := List.forall_mem_cons.1 hs
    rw [loadFiles, refusals, List.filterMap_cons, List.filterMap_cons]
    rcases hfile.cases index with ⟨a, hj, hfound, hnone⟩ | ⟨r, hj, hnone, hrefused⟩
    · obtain ⟨told, disk, target, htold, hrest⟩ := ih hpaths (index + 1)
      refine ⟨told, disk, target, ?_, ?_⟩
      · rw [hnone]
        exact htold
      · rw [Job.result_bind_ok (result_loadFile_ok hj), Job.result_bind_ok hrest, hfound]
        rfl
    · obtain ⟨es, disk, target, hes, hfirst⟩ := result_loadFile_refused hj
      obtain ⟨told, disk', target', htold, hrest⟩ :=
        ih (h := { h with disk, target, trace := h.trace ++ es }) hpaths (index + 1)
      refine ⟨es :: told, disk', target', ?_, ?_⟩
      · rw [hrefused]
        exact .cons hes htold
      · rw [Job.result_bind_ok hfirst, Job.result_bind_ok hrest, hnone, List.flatten_cons,
          ← List.append_assoc]
        rfl

end

/-! The private names of plugin files. -/

theorem moduleName_injective {i j : Nat} {f g : Path} (h : moduleName i f = moduleName j g) :
    i = j := by
  have hdigits : ∀ n, Symbol.char '_' ∉ Text.ofNat n := by
    intro n hm
    exact absurd (Text.isAsciiDigit_ofNat hm) (by decide)
  simp only [moduleName, List.append_assoc, List.append_cancel_left_eq] at h
  have hcut := congrArg (Text.cut (.char '_')) h
  have hfront : ∀ n (rest : Text), Text.cut (.char '_') (Text.ofNat n ++ ("_" ++ rest)) =
      (Text.ofNat n, some rest) := fun n rest => Text.cut_append (hdigits n) rest
  rw [hfront, hfront] at hcut
  have hvalue := congrArg Json.digitsValue (congrArg Prod.fst hcut)
  rwa [Json.digitsValue_ofNat, Json.digitsValue_ofNat] at hvalue

/-- The plugin files with the private names under which they are loaded. -/
def imports (index : Nat) (paths : List Path) : List (Text × Path) :=
  (paths.zipIdx index).map fun p => (moduleName p.2 p.1, p.1)

theorem imports_cons (index : Nat) (file : Path) (paths : List Path) :
    imports index (file :: paths) = (moduleName index file, file) :: imports (index + 1) paths := by
  rw [imports, List.zipIdx_cons, List.map_cons]
  rfl

theorem nodup_imports (index : Nat) (paths : List Path) :
    ((imports index paths).map Prod.fst).Nodup := by
  have hindex : (paths.zipIdx index).Pairwise fun p q => p.2 ≠ q.2 := by
    rw [← List.pairwise_map, List.zipIdx_map_snd]
    exact List.nodup_range'
  rw [imports, List.map_map, List.Nodup, List.pairwise_map]
  exact hindex.imp fun hne heq => hne (moduleName_injective heq)

section

variable [Runtime]

theorem exists_result_loadFile (index : Nat) (file : Path) (h : Host) : ∃ m, m.load = h.load ∧
    (loadFile index file).result h =
      (Except.toOption <$> judge (h.load (moduleName index file) file), m) := by
  cases hj : judge (h.load (moduleName index file) file) with
  | error e =>
    refine ⟨h, rfl, ?_⟩
    unfold loadFile
    rw [Job.result_bind_ok (Job.result_get h), hj]
    rfl
  | ok v =>
    cases v with
    | ok a => exact ⟨h, rfl, result_loadFile_ok hj⟩
    | error r =>
      obtain ⟨es, disk, target, -, hrefused⟩ := result_loadFile_refused hj
      refine ⟨_, ?_, hrefused⟩
      rfl

/-- What the files give hangs on nothing but what they yield under these names. -/
theorem loadFiles_congr (hl : ∀ p ∈ imports index paths, h.load p.1 p.2 = k.load p.1 p.2) :
    ((loadFiles index paths).result h).1 = ((loadFiles index paths).result k).1 := by
  induction paths generalizing h k index with
  | nil => rfl
  | cons file paths ih =>
    rw [imports_cons] at hl
    obtain ⟨hfile, hpaths⟩ := List.forall_mem_cons.1 hl
    obtain ⟨m, hm, hfirst⟩ := exists_result_loadFile index file h
    obtain ⟨n, hn, hfirst'⟩ := exists_result_loadFile index file k
    have hrest : ((loadFiles (index + 1) paths).result m).1 =
        ((loadFiles (index + 1) paths).result n).1 := by
      refine ih fun p hp => ?_
      rw [hm, hn]
      exact hpaths p hp
    rw [loadFiles, Job.result_bind, Job.result_bind, hfirst, hfirst', hfile]
    cases judge (k.load (moduleName index file) file) with
    | error e => rfl
    | ok v =>
      dsimp only [Functor.map, Except.map]
      rw [Job.result_bind, Job.result_bind]
      revert hrest
      rcases (loadFiles (index + 1) paths).result m with ⟨r, m'⟩
      rcases (loadFiles (index + 1) paths).result n with ⟨s, n'⟩
      rintro rfl
      cases r <;> rfl

end

/-! The plugin directory. -/

def fileNames (entries : List (Text × Node)) : List Text := entries.filterMap fun
  | (name, .file _) => if (Path.splitName name).2 = fileExtension then some name else none
  | (_, .directory) => none

theorem files_eq (dir : Path) (entries : List (Text × Node)) :
    files dir entries = (Text.sort (fileNames entries)).map dir.child := rfl

theorem mem_fileNames {name : Text} : name ∈ fileNames entries ↔
    (∃ content, (name, .file content) ∈ entries) ∧ (Path.splitName name).2 = fileExtension := by
  simp only [fileNames, List.mem_filterMap]
  constructor
  · rintro ⟨⟨n, content | -⟩, hm, hn⟩
    · obtain ⟨hext, rfl⟩ : (Path.splitName n).2 = fileExtension ∧ n = name := by simpa using hn
      exact ⟨⟨content, hm⟩, hext⟩
    · cases hn
  · rintro ⟨⟨content, hm⟩, hext⟩
    exact ⟨_, hm, if_pos hext⟩

theorem nodup_fileNames (hd : (entries.map Prod.fst).Nodup) : (fileNames entries).Nodup := by
  have hsub : ∀ entries, (fileNames entries).Sublist (entries.map Prod.fst) := by
    intro entries
    induction entries with
    | nil => exact .slnil
    | cons e entries ih =>
      obtain ⟨name, content | -⟩ := e
      · by_cases hext : (Path.splitName name).2 = fileExtension
        · simp only [fileNames, List.filterMap_cons, if_pos hext]
          exact ih.cons_cons name
        · simp only [fileNames, List.filterMap_cons, if_neg hext]
          exact ih.cons name
      · exact ih.cons name
  exact hd.sublist (hsub entries)

/-- A directory that can be listed: its entries, no two of one name, with sound plugin files. -/
structure Lists (h : Host) (dir : Path) (entries : List (Text × Node)) : Prop where
  directory : h.disk.isDirectory dir = .ok true
  listed : h.disk.list dir = .ok entries
  distinct : (entries.map Prod.fst).Nodup
  sound : ∀ file ∈ files dir entries, Sound h.load file

section

variable [Runtime]

theorem result_listed (hd : h.disk.isDirectory dir = .ok true)
    (hl : h.disk.list dir = .ok entries) :
    (loadDirectory dir).result h = (loadFiles 0 (files dir entries)).result h := by
  unfold loadDirectory
  rw [Job.result_bind_ok (Job.result_get h)]
  dsimp only
  rw [hd, hl]
  rfl

theorem Lists.result (hl : Lists h dir entries) : ∃ told disk target,
    List.Forall₂ (fun p es => p.2.Told h.now p.1 es) (refusals h.load (files dir entries)) told ∧
    (loadDirectory dir).result h = (.ok ((files dir entries).filterMap (found? h.load)),
      { h with disk, target, trace := h.trace ++ told.flatten }) := by
  rw [result_listed hl.directory hl.listed]
  exact result_loadFiles hl.sound 0

theorem Lists.end_eq (hl : Lists h dir entries) : ((loadDirectory dir).result h).1 =
    .ok ((Text.sort (fileNames entries)).filterMap fun name => found? h.load (dir.child name)) := by
  obtain ⟨told, disk, target, -, hresult⟩ := hl.result
  rw [hresult, files_eq, List.filterMap_map]
  rfl

end

/-- Texts in order that give nothing may be left out before. -/
theorem filterMap_sort {α : Type} {ts us : List Text} (f : Text → Option α) (ht : ts.Nodup)
    (hu : us.Nodup) (h : ∀ t, (f t).isSome → (t ∈ us ↔ t ∈ ts)) :
    (Text.sort us).filterMap f = (Text.sort ts).filterMap f := by
  have hkept : ∀ ts : List Text,
      (Text.sort ts).filterMap f = (Text.sort (ts.filter fun t => (f t).isSome)).filterMap f := by
    intro ts
    rw [← Text.filter_sort, List.filterMap_filter]
    refine List.filterMap_congr fun t _ => ?_
    cases f t <;> rfl
  have hsame : (us.filter fun t => (f t).isSome).Perm (ts.filter fun t => (f t).isSome) := by
    refine (List.perm_ext_iff_of_nodup (hu.filter _) (ht.filter _)).2 fun t => ?_
    rw [List.mem_filter, List.mem_filter]
    exact and_congr_left (h t)
  rw [hkept us, hkept ts, Text.sort_eq_of_perm hsame]

theorem sort_fileNames_singleton {name : Text} {content : Bytes}
    (hext : (Path.splitName name).2 = fileExtension) :
    Text.sort (fileNames [(name, .file content)]) = [name] := by
  have hnames : fileNames [(name, .file content)] = [name] := by
    simp only [fileNames, List.filterMap_cons, if_pos hext, List.filterMap_nil]
  rw [hnames]
  exact List.mergeSort_singleton name

section

variable [Runtime]

/-- Plugin files that are loaded apart: what comes of a directory with these plugin files, whose
loading is told of in this way and leads to this host. -/
structure Isolated (h : Host) (dir : Path) (entries : List (Text × Node)) (names : List Text)
    (notices : List (List Effect)) (final : Host) : Prop where
  /-- The names are those of the files with the extension of plugins. -/
  mem_iff : ∀ name, name ∈ names ↔
    (∃ content, (name, .file content) ∈ entries) ∧ (Path.splitName name).2 = fileExtension
  distinct : names.Nodup
  ordered : names.Pairwise fun s t => Text.le s t = true
  /-- Loading ends with what the files give by themselves. -/
  result : (loadDirectory dir).result h =
    (.ok (names.filterMap fun name => found? h.load (dir.child name)), final)
  /-- The files that are refused are told of once, and nothing else is. -/
  told : List.Forall₂ (fun p es => p.2.Told h.now p.1 es)
    (refusals h.load (names.map dir.child)) notices
  trace : final.trace = h.trace ++ notices.flatten
  refused_iff : ∀ name ∈ names, (refused? h.load (dir.child name)).isSome ↔
    found? h.load (dir.child name) = none
  /-- By itself a file gives what the directory gives without the others. -/
  alone : ∀ k name content, name ∈ names → k.load = h.load → Lists k dir [(name, .file content)] →
    ((loadDirectory dir).result k).1 = .ok (found? h.load (dir.child name)).toList
  /-- Neither the order of the entries counts, nor which files there are that give nothing. -/
  unaffected : ∀ k others, k.load = h.load → Lists k dir others →
    (∀ name, (found? h.load (dir.child name)).isSome →
      (name ∈ fileNames others ↔ name ∈ fileNames entries)) →
    ((loadDirectory dir).result k).1 = ((loadDirectory dir).result h).1
  /-- No two files have one private name, and nothing is loaded but these files by these names. -/
  privately : ((imports 0 (names.map dir.child)).map Prod.fst).Nodup
  loads : ∀ load, (∀ p ∈ imports 0 (names.map dir.child), load p.1 p.2 = h.load p.1 p.2) →
    ((loadDirectory dir).result { h with load }).1 = ((loadDirectory dir).result h).1

/-- Plugin files are loaded apart: a directory gives what its plugin files give by themselves, in
the order of their names, and each of the others is told of once. -/
theorem loadDirectory_isolates (hl : Lists h dir entries) :
    ∃ names notices final, Isolated h dir entries names notices final := by
  obtain ⟨told, disk, target, htold, hresult⟩ := hl.result
  have hsort := Text.sort_perm (fileNames entries)
  refine ⟨Text.sort (fileNames entries), told,
    { h with disk, target, trace := h.trace ++ told.flatten }, ?_⟩
  exact {
    mem_iff := fun name => hsort.mem_iff.trans mem_fileNames
    distinct := hsort.nodup_iff.2 (nodup_fileNames hl.distinct)
    ordered := Text.pairwise_sort _
    result := by
      rw [hresult, files_eq, List.filterMap_map]
      rfl
    told := htold
    trace := rfl
    refused_iff := by
      intro name hn
      have hsound := hl.sound (dir.child name) (files_eq dir entries ▸ List.mem_map_of_mem hn)
      rcases hsound.cases 0 with ⟨a, -, hfound, hnone⟩ | ⟨r, -, hnone, hrefused⟩
      · simp [hfound, hnone]
      · simp [hnone, hrefused]
    alone := by
      intro k name content hn hk hone
      have hext := (mem_fileNames.1 (hsort.mem_iff.1 hn)).2
      rw [hone.end_eq, hk, sort_fileNames_singleton hext, List.filterMap_cons]
      cases found? h.load (dir.child name) <;> rfl
    unaffected := by
      intro k others hk hothers hsame
      rw [hothers.end_eq, hl.end_eq, hk]
      exact congrArg _ (filterMap_sort _ (nodup_fileNames hl.distinct)
        (nodup_fileNames hothers.distinct) hsame)
    privately := nodup_imports 0 _
    loads := by
      intro load hload
      rw [result_listed (h := { h with load }) hl.directory hl.listed,
        result_listed hl.directory hl.listed]
      exact loadFiles_congr hload }

/-- The names are what the listing gives in order. -/
theorem Isolated.names_eq {names : List Text} {notices : List (List Effect)} {final : Host}
    (i : Isolated h dir entries names notices final) (hl : Lists h dir entries) :
    names = Text.sort (fileNames entries) := by
  refine Text.sort_unique ?_ i.ordered
  rw [List.perm_ext_iff_of_nodup i.distinct (nodup_fileNames hl.distinct)]
  exact fun name => (i.mem_iff name).trans mem_fileNames.symm

end

/-- A directory with a file that gives an action, one that fails and one that is no plugin. -/
def mixedHost : Host where
  now := ⟨0⟩
  disk.nodes := [
    ("actions", .directory), ("actions/shout.py", .file []), ("actions/notes.txt", .file []),
    ("actions/broken.py", .file [])]
  load _ file :=
    if file.stem = "broken" then { attributes := [], halt := some (.failed (.execution "no")) }
    else { attributes := [("id", .str "shout"), ("run", .function fun _ => .done (.str "HI"))] }

/-- The action of its good file. -/
def shout : Action where
  id := "shout"
  description := "Plugin action: shout"
  title := "shout"
  run := runner fun _ => .done (.str "HI")

/-- Why its broken file yields none. -/
def failing : Refusal := .halted (.failed (.execution "no"))

/-- That directory gives the action of the good file, and the broken file alone is told of. -/
theorem loadDirectory_isolates_mixed :
    Lists mixedHost "actions"
      [("shout.py", .file []), ("notes.txt", .file []), ("broken.py", .file [])] ∧
    ∃ told final, Isolated mixedHost "actions"
        [("shout.py", .file []), ("notes.txt", .file []), ("broken.py", .file [])]
        ["broken.py", "shout.py"] [told] final ∧
      (loadDirectory "actions").result mixedHost = (.ok [shout], final) ∧
      failing.Told mixedHost.now "actions/broken.py" told := by
  have hsound : ∀ file, Sound mixedHost.load file := by
    intro file
    refine ⟨fun _ _ => rfl, fun name e he => .inl ?_⟩
    by_cases hbroken : file.stem = "broken"
    · simp only [mixedHost, if_pos hbroken, Option.some.injEq] at he
      exact ⟨_, he.symm⟩
    · simp [mixedHost, if_neg hbroken] at he
  have hlists : Lists mixedHost "actions"
      [("shout.py", .file []), ("notes.txt", .file []), ("broken.py", .file [])] :=
    ⟨rfl, rfl, by decide, fun file _ => hsound file⟩
  obtain ⟨names, notices, final, i⟩ := loadDirectory_isolates hlists
  obtain rfl : names = ["broken.py", "shout.py"] :=
    (i.names_eq hlists).trans (Text.sort_unique (.swap _ _ _) (by decide)).symm
  obtain ⟨told, rfl, htold⟩ : ∃ told, notices = [told] ∧
      failing.Told mixedHost.now "actions/broken.py" told := by
    have hnotices := i.told
    have hrefusals :
        refusals mixedHost.load (["broken.py", "shout.py"].map (Path.child "actions")) =
          [(Path.ofText "actions/broken.py", failing)] := rfl
    rw [hrefusals] at hnotices
    cases hnotices with
    | cons htold hrest =>
      cases hrest
      exact ⟨_, rfl, htold⟩
  exact ⟨hlists, told, final, i, i.result, htold⟩

end ClipActions.Plugin
