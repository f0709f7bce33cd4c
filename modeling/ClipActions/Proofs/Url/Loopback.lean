import ClipActions.Proofs.Url.Grammar
import ClipActions.Provider

/-!
Which endpoints keep a text on this machine. An endpoint that is trusted has, by the grammar of
URLs, an authority whose host is this machine; and each of the names of this machine is trusted
with every scheme, port and rest.
-/
namespace ClipActions

namespace Symbol

/-- Only a letter becomes a letter. -/
theorem asciiLower_cases (s : Symbol) :
    s.asciiLower = s ∨ s.isAsciiLetter = true ∧ s.asciiLower.isAsciiLetter = true := by
  cases s with
  | lone half => exact .inl rfl
  | char c =>
    by_cases hc : 'A' ≤ c ∧ c ≤ 'Z'
    · right
      have hlow : 'A'.toNat ≤ c.toNat := hc.1
      have hhigh : c.toNat ≤ 'Z'.toNat := hc.2
      have hletter : ∀ n < 26, (char (Char.ofNat ('A'.toNat + n + 32))).isAsciiLetter = true := by
        decide
      have hn : c.toNat = 'A'.toNat + (c.toNat - 'A'.toNat) := by omega
      have hlt : c.toNat - 'A'.toNat < 26 := by
        have : 'Z'.toNat = 'A'.toNat + 25 := rfl
        omega
      refine ⟨by simp [isAsciiLetter, hc.1, hc.2], ?_⟩
      rw [asciiLower, if_pos hc, hn]
      exact hletter _ hlt
    · exact .inl (by rw [asciiLower, if_neg hc])

end Symbol

namespace Text

variable {t u : Text}

theorem mem_of_asciiLower {r : Symbol} (hr : r.isAsciiLetter = false) (h : r ∈ t.asciiLower) :
    r ∈ t := by
  obtain ⟨s, hs, rfl⟩ := List.mem_map.1 h
  obtain hself | ⟨-, hletter⟩ := s.asciiLower_cases
  · rwa [hself]
  · rw [hr] at hletter
    cases hletter

/-- A text whose lower case has no letters is written in no other way. -/
theorem eq_of_asciiLower_eq (h : t.asciiLower = u)
    (hu : u.Of (Symbol.isAsciiLetter · = false)) : t = u := by
  have hself : t.asciiLower = t := by
    refine (List.map_congr_left fun s hs => ?_).trans (List.map_id t)
    obtain hs' | ⟨-, hs'⟩ := s.asciiLower_cases
    · exact hs'
    · have hmem : s.asciiLower ∈ u := h ▸ List.mem_map_of_mem hs
      rw [hu _ hmem] at hs'
      cases hs'
  exact hself.symm.trans h

end Text

namespace Url

/-- The ways to write this machine as the host of a URL, up to the case of letters. -/
def loopbackForms : List Text := ["localhost", "127.0.0.1", "[::1]"]

/-- A host that is this machine, with letters in either case. -/
def IsLoopback (host : Text) : Prop := host.asciiLower ∈ loopbackForms

section

variable [Runtime]

instance (host : Text) : Decidable (IsLoopback host) :=
  inferInstanceAs (Decidable (_ ∈ loopbackForms))

end

/-- A host between brackets that is this machine: the address of it, or also another name of it if
there are brackets in the user data, which are looked at instead. -/
def IsEnclosed (user host : Text) : Prop :=
  host.asciiLower ∈ Provider.loopbackHosts ∧ (host = "::1" ∨ .char '[' ∈ user)

/-- An authority whose host is this machine. -/
inductive Loopback (rule : BracketRule) : Text → Prop
  | host {user host tail : Text} (hu : IsUser user) (hh : IsLoopback host) (ht : IsTail tail) :
      Loopback rule (user ++ host ++ tail)
  /-- The bracket after the host may stand before the at sign instead. -/
  | unclosed {name : Text} (h : .char ']' ∈ name) : Loopback rule (name ++ "@[::1")
  /-- If only the first pair of brackets is looked at, more may stand around those of the host. -/
  | enclosed {user before host after tail : Text} (hr : rule = .pair) (hu : IsUser user)
      (hb : .char '@' ∉ before) (hh : IsEnclosed user host) (ha : .char '@' ∉ after)
      (hc : .char ':' ∉ after) (ht : IsTail tail) :
      Loopback rule (user ++ (before ++ "[" ++ host ++ "]" ++ after ++ tail))
  | opened {user before host : Text} (hr : rule = .pair) (hu : IsUser user)
      (hb : .char '@' ∉ before) (hh : IsEnclosed user host) (hc : .char ']' ∈ user ++ before) :
      Loopback rule (user ++ (before ++ "[" ++ host))

variable {rule : BracketRule}

variable {host tail a : Text}

theorem IsLoopback.isPlain (h : IsLoopback host) : host.Of IsPlain := by
  have hforms : ∀ form ∈ loopbackForms, form.Of IsPlain := by decide
  intro s hs
  obtain hlow | ⟨hletter, -⟩ := s.asciiLower_cases
  · rw [← hlow]
    exact hforms _ h _ (List.mem_map_of_mem hs)
  · exact .inl (.inr (.inl hletter))

theorem IsTail.symbols (h : IsTail tail) : tail.Of fun s => s.IsNumeral ∨ s = .char ':' := by
  cases h with
  | none => simp [Text.Of]
  | colon => decide
  | port h => exact .append (by decide) fun s hs => .inl (h.ofNumerals s hs)

theorem IsTail.isPlain (h : IsTail tail) : tail.Of IsPlain := fun s hs =>
  (h.symbols s hs).imp_right .inl

/-! What the code takes for this machine. -/

/-- What is asked of an authority before its host is taken for this machine. -/
structure Taken (rule : BracketRule) (a : Text) : Prop where
  brackets : bracketsOk rule a = true
  number : numberOk (place a).number = true
  host : foldHost (place a).host ∈ Provider.loopbackHosts

section

variable [Runtime]

theorem host?_iff {url : Text} : (∃ h ∈ Provider.loopbackHosts, host? url = some h) ↔
    Taken Runtime.brackets (authority url) ∧ undisguised (authority url) = true := by
  simp only [host?, Option.ite_none_right_eq_some, Bool.and_eq_true, Option.some.injEq]
  constructor
  · rintro ⟨-, hh, ⟨⟨⟨hb, hun⟩, hn⟩, -⟩, rfl⟩
    exact ⟨⟨hb, hn, hh⟩, hun⟩
  · rintro ⟨⟨hb, hn, hh⟩, hun⟩
    refine ⟨_, hh, ⟨⟨⟨hb, hun⟩, hn⟩, ?_⟩, rfl⟩
    rw [Bool.not_eq_true', List.isEmpty_eq_false_iff]
    intro he
    rw [he] at hh
    exact absurd hh (by decide)

end

theorem foldHost_eq (h : .char '%' ∉ host) : foldHost host = host.asciiLower := by
  have hall := Text.all_ne_of_not_mem h
  rw [foldHost, List.takeWhile_eq_self_iff.2 hall, List.dropWhile_eq_nil_iff.2 hall,
    List.append_nil]

theorem asciiLower_of_foldHost (h : foldHost host ∈ Provider.loopbackHosts) :
    host.asciiLower ∈ Provider.loopbackHosts := by
  have hzone : ∀ t ∈ Provider.loopbackHosts, .char '%' ∉ t := by decide
  have hhost : .char '%' ∉ host := by
    intro hmem
    obtain ⟨before, after, rfl, hb⟩ := List.eq_append_cons_of_mem hmem
    refine hzone _ h (List.mem_append_right _ ?_)
    rw [List.dropWhile_append_of_pos (Text.all_ne_of_not_mem hb)]
    simp
  rwa [foldHost_eq hhost] at h

/-- An address between brackets has a colon or begins with the mark of a later version. -/
theorem mem_of_isBracketed {t : Text} (h : isBracketed t = true) :
    .char ':' ∈ t ∨ .char 'v' ∈ t := by
  rw [isBracketed, Bool.or_eq_true] at h
  obtain h | h := h
  · unfold isLater at h
    split at h
    · exact .inr List.mem_cons_self
    · cases h
  · left
    simp only [isV6, Bool.and_eq_true] at h
    obtain ⟨groups, hgroups, -⟩ := (Option.any_eq_true _ _).1 h.2
    have haddress : .char ':' ∈ (t.cut (.char '%')).1 := by
      by_contra hn
      rw [groups?, Text.splitOn_of_not_mem hn] at hgroups
      cases hgroups
    obtain ⟨-, hcut⟩ | ⟨address, zone, rfl, -, hcut⟩ := Text.cut_cases (.char '%') t
    · rwa [hcut] at haddress
    · rw [hcut] at haddress
      exact List.mem_append_left _ haddress

/-- A host between brackets is this machine only as the address of the sixth version. -/
theorem eq_of_isBracketed (hb : isBracketed host = true)
    (hh : host.asciiLower ∈ Provider.loopbackHosts) : host = "::1" := by
  have hmem : .char ':' ∈ host.asciiLower ∨ .char 'v' ∈ host.asciiLower :=
    (mem_of_isBracketed hb).imp (List.mem_map_of_mem (f := Symbol.asciiLower))
      (List.mem_map_of_mem (f := Symbol.asciiLower))
  have hone : ∀ t ∈ Provider.loopbackHosts, (.char ':' ∈ t ∨ .char 'v' ∈ t) → t = "::1" := by decide
  exact Text.eq_of_asciiLower_eq (hone _ hh hmem) (by decide)

theorem isTail_of_numberOk {number : Text} (h : numberOk number = true) :
    IsTail (":" ++ number) := by
  rw [numberOk, Bool.or_eq_true, Bool.and_eq_true] at h
  obtain h | ⟨-, h⟩ := h
  · rw [List.isEmpty_iff.1 h]
    exact .colon
  · exact .port (isPort_iff.2 h)

/-- What comes before the last part of an authority. -/
theorem exists_user (a : Text) : ∃ user, IsUser user ∧ a = user ++ a.afterLast (.char '@') ∧
    .char '@' ∉ a.afterLast (.char '@') := by
  obtain ⟨hno, hself⟩ | ⟨name, written, ha, hno, hlast⟩ := Text.afterLast_cases (.char '@') a
  · exact ⟨[], .none, by rw [hself, List.nil_append], by rwa [hself]⟩
  · refine ⟨name ++ "@", .name name, ?_, by rwa [hlast]⟩
    rw [hlast, List.append_assoc]
    exact ha

/-- Without brackets the host stands before the first colon. -/
theorem Taken.loopback_of_open (h : Taken rule a) (hopen : .char '[' ∉ a.afterLast (.char '@')) :
    Loopback rule a := by
  have hh := asciiLower_of_foldHost h.host
  have hn := h.number
  obtain ⟨user, huser, ha, -⟩ := exists_user a
  have hplain : ∀ host : Text, .char ':' ∉ host → host.asciiLower ∈ Provider.loopbackHosts →
      IsLoopback host := by
    intro host hc hh
    have hcolon : .char ':' ∉ host.asciiLower := fun h => hc (Text.mem_of_asciiLower (by decide) h)
    exact (by decide : ∀ t ∈ Provider.loopbackHosts, .char ':' ∉ t → t ∈ loopbackForms) _ hh hcolon
  obtain ⟨hc, hcut⟩ | ⟨host, number, hw, hc, hcut⟩ :=
    Text.cut_cases (.char ':') (a.afterLast (.char '@'))
  · simp only [place, Text.cut_of_not_mem hopen, hcut] at hh
    have : Loopback rule _ := .host huser (hplain _ hc hh) .none
    rwa [List.append_nil, ← ha] at this
  · simp only [place, Text.cut_of_not_mem hopen, hcut] at hh hn
    have : Loopback rule _ := .host huser (hplain _ hc hh) (isTail_of_numberOk hn)
    rw [List.append_assoc] at this
    rw [ha, hw]
    exact this

/-- With an opening bracket in it, an authority has a closing one as well. -/
theorem mem_close_of_bracketsOk (h : bracketsOk rule a = true) (hopen : .char '[' ∈ a) :
    .char ']' ∈ a := by
  unfold bracketsOk at h
  split at h
  · rename_i hn _
    rw [← List.contains_iff_mem, hn] at hopen
    cases hopen
  · rename_i hclose
    exact List.contains_iff_mem.1 hclose
  · cases h

/-- An address is then between the first pair of brackets, or the host is one and stands alone between
its brackets. -/
theorem isBracketed_of_bracketsOk (h : bracketsOk rule a = true) (hopen : .char '[' ∈ a) :
    match rule with
    | .pair => isBracketed (firstBracketed a) = true
    | .host => (place a).before.all (·.isEmpty) = true ∧ (place a).after = [] ∧
        isBracketed (place a).host = true := by
  have hcontains : a.contains (.char '[') = true ∧ a.contains (.char ']') = true :=
    ⟨List.contains_iff_mem.2 hopen, List.contains_iff_mem.2 (mem_close_of_bracketsOk h hopen)⟩
  unfold bracketsOk at h
  rw [hcontains.1, hcontains.2] at h
  cases rule with
  | pair => exact h
  | host =>
    simp only [Bool.and_eq_true, List.isEmpty_iff] at h
    exact ⟨h.1.1, h.1.2, h.2⟩

/-- Where the host alone stands between brackets, or the second one stands before the at sign. -/
theorem Taken.loopback_of_bracketed (h : Taken .host a)
    (hopen : .char '[' ∈ a.afterLast (.char '@')) : Loopback .host a := by
  have hn := h.number
  obtain ⟨user, huser, ha, -⟩ := exists_user a
  have hmem : .char '[' ∈ a := by
    rw [ha]
    exact List.mem_append_right user hopen
  have hclose := mem_close_of_bracketsOk h.brackets hmem
  obtain ⟨hbefore, hafter, hbr⟩ := isBracketed_of_bracketsOk h.brackets hmem
  have heq := eq_of_isBracketed hbr (asciiLower_of_foldHost h.host)
  obtain ⟨hno, -⟩ | ⟨before, bracketed, hw, -, hcut⟩ :=
    Text.cut_cases (.char '[') (a.afterLast (.char '@'))
  · exact absurd hopen hno
  obtain ⟨-, hend⟩ | ⟨host, rest, hbr, -, hend⟩ := Text.cut_cases (.char ']') bracketed
  · simp only [place, hcut, hend, Option.all_some, List.isEmpty_iff] at hbefore heq
    subst hbefore heq
    rw [ha, hw, List.nil_append] at hclose ⊢
    cases huser with
    | none => exact absurd hclose (by decide)
    | name name =>
      have hname : .char ']' ∈ name := by
        simpa [Text.ofString] using hclose
      rw [List.append_assoc]
      exact .unclosed hname
  · have hloop : IsLoopback "[::1]" := by decide
    obtain ⟨-, hrest⟩ | ⟨after, number, hr, -, hrest⟩ := Text.cut_cases (.char ':') rest
    · simp only [place, hcut, hend, Option.getD_some, hrest, Option.all_some, List.isEmpty_iff]
        at hbefore heq hafter
      subst hbefore heq hafter
      have : Loopback .host _ := .host huser hloop .none
      rw [ha, hw, hbr]
      rwa [List.append_nil] at this
    · simp only [place, hcut, hend, Option.getD_some, hrest, Option.all_some, List.isEmpty_iff]
        at hbefore heq hafter hn
      subst hbefore heq hafter
      have : Loopback .host _ := .host huser hloop (isTail_of_numberOk hn)
      rw [List.append_assoc] at this
      rw [ha, hw, hbr, hr]
      exact this

/-- Where only the first pair of brackets is looked at, the host stands between any. -/
theorem Taken.loopback_of_paired (h : Taken .pair a)
    (hopen : .char '[' ∈ a.afterLast (.char '@')) : Loopback .pair a := by
  have hn := h.number
  obtain ⟨user, huser, ha, hat⟩ := exists_user a
  have hmem : .char '[' ∈ a := by
    rw [ha]
    exact List.mem_append_right user hopen
  have hclose := mem_close_of_bracketsOk h.brackets hmem
  have hfirst : isBracketed (firstBracketed a) = true := isBracketed_of_bracketsOk h.brackets hmem
  have hh := asciiLower_of_foldHost h.host
  obtain ⟨hno, -⟩ | ⟨before, bracketed, hw, hbefore, hcut⟩ :=
    Text.cut_cases (.char '[') (a.afterLast (.char '@'))
  · exact absurd hopen hno
  -- Without a bracket in the user data the first pair is the one around the host.
  have henclosed : ∀ host, (Text.cut (.char ']') bracketed).1 = host →
      host.asciiLower ∈ Provider.loopbackHosts → IsEnclosed user host := by
    intro host hend hh
    refine ⟨hh, ?_⟩
    by_cases huser : .char '[' ∈ user
    · exact .inr huser
    · have hnone : .char '[' ∉ user ++ before := by
        simp [huser, hbefore]
      have hfirst' : firstBracketed a = host := by
        rw [firstBracketed, ha, hw, ← List.append_assoc, Text.cut_append hnone]
        exact hend
      rw [hfirst'] at hfirst
      exact .inl (eq_of_isBracketed hfirst hh)
  rw [hw] at hat
  have hbeforeAt : .char '@' ∉ before := fun h => hat (List.mem_append_left _ h)
  obtain ⟨hopened, hend⟩ | ⟨host, rest, hbr, -, hend⟩ := Text.cut_cases (.char ']') bracketed
  · simp only [place, hcut, hend] at hh
    have hc : .char ']' ∈ user ++ before := by
      rw [ha, hw, ← List.append_assoc] at hclose
      rcases List.mem_append.1 hclose with h | h
      · exact h
      · rcases List.mem_cons.1 h with h | h
        · exact absurd h (by decide)
        · exact absurd h hopened
    have := Loopback.opened rfl huser hbeforeAt (henclosed bracketed (by rw [hend]) hh) hc
    rw [ha, hw]
    rwa [List.append_assoc before] at this
  · have hhost := henclosed host (by rw [hend])
    have hrestAt : .char '@' ∉ rest := by
      rw [hbr] at hat
      simp only [List.mem_append, List.mem_cons, not_or] at hat
      exact hat.2.2.2.2
    rw [ha, hw, hbr]
    obtain ⟨hcolon, hrest⟩ | ⟨after, number, hr, hcolon, hrest⟩ := Text.cut_cases (.char ':') rest
    · simp only [place, hcut, hend, Option.getD_some, hrest] at hh
      have := Loopback.enclosed rfl huser hbeforeAt (hhost hh) hrestAt hcolon .none
      simpa [Text.ofString] using this
    · simp only [place, hcut, hend, Option.getD_some, hrest] at hh hn
      rw [hr] at hrestAt ⊢
      have hafterAt : .char '@' ∉ after := fun h => hrestAt (List.mem_append_left _ h)
      have := Loopback.enclosed rfl huser hbeforeAt (hhost hh) hafterAt hcolon
        (isTail_of_numberOk hn)
      simpa [Text.ofString] using this

theorem Taken.loopback (h : Taken rule a) : Loopback rule a := by
  by_cases hopen : .char '[' ∈ a.afterLast (.char '@')
  · cases rule with
    | host => exact h.loopback_of_bracketed hopen
    | pair => exact h.loopback_of_paired hopen
  · exact h.loopback_of_open hopen

/-- By the first rule a text may stand before the brackets, by the second it may not. -/
example : Taken .pair "example.com[::1]" ∧ ¬ Taken .host "example.com[::1]" :=
  ⟨⟨by decide, by decide, by decide⟩, fun h => absurd h.brackets (by decide)⟩

theorem Taken.ne_nil (h : Taken rule a) : a ≠ [] := by
  rintro rfl
  exact absurd h.host (by decide)

/-! What the code finds in the grammar. -/

/-- A tail is empty or a colon and a number that is let through. -/
theorem IsTail.number (h : IsTail tail) (hl : tail.length ≤ maxDigits + 1) :
    tail = [] ∨ ∃ number, numberOk number = true ∧ tail = .char ':' :: number := by
  cases h with
  | none => exact .inl rfl
  | colon => exact .inr ⟨[], rfl, rfl⟩
  | @port t h =>
    have hlen : t.length ≤ maxDigits := Nat.le_of_succ_le_succ hl
    exact .inr ⟨t, by simp [numberOk, hlen, isPort_iff.1 h], rfl⟩

theorem taken_of_name (hh : host.asciiLower ∈ (["localhost", "127.0.0.1"] : List Text))
    (ht : IsTail tail) (hl : tail.length ≤ maxDigits + 1) : Taken rule (host ++ tail) := by
  have hhost : ∀ r : Symbol, (∀ t ∈ (["localhost", "127.0.0.1"] : List Text), r.asciiLower ∉ t) →
      r ∉ host := fun r hr h => hr _ hh (List.mem_map_of_mem h)
  have hall : ∀ r : Symbol, (∀ t ∈ (["localhost", "127.0.0.1"] : List Text), r.asciiLower ∉ t) →
      ¬ (r.IsNumeral ∨ r = .char ':') → r ∉ host ++ tail := by
    intro r hr hn h
    obtain h | h := List.mem_append.1 h
    · exact hhost r hr h
    · exact hn (ht.symbols r h)
  have hopen : .char '[' ∉ host ++ tail := hall _ (by decide) (by decide)
  have hclose : .char ']' ∉ host ++ tail := hall _ (by decide) (by decide)
  have hat : .char '@' ∉ host ++ tail := hall _ (by decide) (by decide)
  have hplace : (place (host ++ tail)).host = host ∧
      numberOk (place (host ++ tail)).number = true := by
    have hcolon : .char ':' ∉ host := hhost _ (by decide)
    rw [place, Text.afterLast_of_not_mem hat]
    simp only [Text.cut_of_not_mem hopen]
    obtain rfl | ⟨number, hn, rfl⟩ := ht.number hl
    · rw [List.append_nil, Text.cut_of_not_mem hcolon]
      exact ⟨rfl, rfl⟩
    · rw [Text.cut_append hcolon]
      exact ⟨rfl, hn⟩
  refine ⟨by simp [bracketsOk, hopen, hclose], hplace.2, ?_⟩
  rw [hplace.1, foldHost_eq (hhost _ (by decide))]
  exact (by decide : ∀ t ∈ (["localhost", "127.0.0.1"] : List Text), t ∈ Provider.loopbackHosts) _ hh

theorem taken_of_brackets (ht : IsTail tail) (hl : tail.length ≤ maxDigits + 1) :
    Taken rule ("[::1]" ++ tail) := by
  have hat : .char '@' ∉ "[::1]" ++ tail := by
    intro h
    obtain h | h := List.mem_append.1 h
    · exact absurd h (by decide)
    · exact absurd (ht.symbols _ h) (by decide)
  have hopen : ("[::1]" ++ tail).cut (.char '[') = ([], some ("::1]" ++ tail)) := rfl
  have hclose : ("::1]" ++ tail).cut (.char ']') = (("::1" : Text), some tail) := rfl
  obtain ⟨number, hn, hplace⟩ : ∃ number, numberOk number = true ∧
      place ("[::1]" ++ tail) = { host := "::1", number, before := some [], after := [] } := by
    rw [place, Text.afterLast_of_not_mem hat]
    simp only [hopen, hclose, Option.getD_some]
    obtain rfl | ⟨number, hn, rfl⟩ := ht.number hl
    · exact ⟨[], rfl, rfl⟩
    · exact ⟨number, hn, rfl⟩
  have hmem : ("[::1]" ++ tail).contains (.char '[') = true ∧
      ("[::1]" ++ tail).contains (.char ']') = true := ⟨rfl, rfl⟩
  have hbr : isBracketed "::1" = true := by decide
  have hfold : foldHost "::1" ∈ Provider.loopbackHosts := by decide
  have hfirst : firstBracketed ("[::1]" ++ tail) = "::1" := by
    simp only [firstBracketed, hopen, Option.getD_some, hclose]
  refine ⟨?_, by rwa [hplace], by rwa [hplace]⟩
  cases rule with
  | pair => simp only [bracketsOk, hmem, hfirst, hbr]
  | host =>
    simp only [bracketsOk, hmem, hplace, hbr]
    rfl

theorem IsLoopback.taken (hh : IsLoopback host) (ht : IsTail tail)
    (hl : tail.length ≤ maxDigits + 1) : Taken rule (host ++ tail) := by
  have hforms : ∀ t ∈ loopbackForms,
      t ∈ (["localhost", "127.0.0.1"] : List Text) ∨ t = "[::1]" := by decide
  obtain hname | hbr := hforms _ hh
  · exact taken_of_name hname ht hl
  · rw [Text.eq_of_asciiLower_eq hbr (by decide)]
    exact taken_of_brackets ht hl

theorem undisguised_of_plain (h : a.Of IsPlain) : undisguised a = true := by
  have hhigh : ∀ n ∈ disguised, 0x80 ≤ n := by decide
  rw [undisguised, Bool.not_eq_true', List.any_eq_false]
  intro s hs hmem
  have := hhigh _ (List.contains_iff_mem.1 hmem)
  have := (h s hs).ascii
  omega

end Url

namespace Provider

open Url

section

variable [Runtime]

theorem isCloud_eq_false {type : Text} (h : type ∉ cloudTypes ++ localTypes) (url : Text) :
    isCloud type (some url) = false ↔
      Taken Runtime.brackets (authority url) ∧ undisguised (authority url) = true := by
  rw [List.mem_append, not_or] at h
  rw [isCloud, if_neg h.1, if_neg h.2, Option.bind_some, Bool.not_eq_false',
    Option.any_eq_true, ← host?_iff]
  simp only [List.contains_iff_mem, and_comm]

/-- An endpoint of a type that is not known is trusted only if its authority is of this machine, and
every name of this machine is trusted with any scheme, any port and any rest. -/
theorem trusts_loopback_alone {type : Text}
    (h : type ∉ (["openai", "anthropic", "ollama"] : List Text)) :
    (∀ endpoint, isCloud type (some endpoint) = false →
      ∃ authority, Divides (clean endpoint) authority ∧ Loopback Runtime.brackets authority) ∧
    (∀ scheme host tail rest : Text, IsScheme scheme → IsLoopback host → IsTail tail →
      tail.length ≤ maxDigits + 1 → IsRest rest →
      isCloud type (some (scheme ++ "://" ++ (host ++ tail) ++ rest)) = false) ∧
    ∀ n ≤ 65535, IsTail (":" ++ Text.ofNat n) ∧ (":" ++ Text.ofNat n).length ≤ maxDigits + 1 := by
  refine ⟨fun endpoint he => ?_, fun scheme host tail rest hs hh ht hl hr => ?_, fun n hn => ?_⟩
  · obtain ⟨htaken, -⟩ := (isCloud_eq_false h endpoint).1 he
    exact ⟨authority endpoint, divides_authority htaken.ne_nil, htaken.loopback⟩
  · have hplain : (host ++ tail).Of IsPlain := .append hh.isPlain ht.isPlain
    rw [isCloud_eq_false h, authority_eq hs hplain hr]
    exact ⟨hh.taken ht hl, undisguised_of_plain hplain⟩
  · have hlen : (Text.ofNat n).length ≤ 5 :=
      Text.length_ofNat_le (by decide) (Nat.lt_of_le_of_lt hn (by decide))
    exact ⟨.port (isPort_ofNat hn), Nat.succ_le_succ (Nat.le_trans hlen (by decide))⟩

end

/-- A name of this machine in letters of either case, with a port and a rest. -/
theorem trusts_loopback_alone_custom :
    isCloud "custom" (some "h2+x://LocalHost:65535?to=//example.com") = false ∧
      ∃ authority, Divides (clean " //me@[::1]/v1") authority ∧ Loopback .host authority := by
  have h := @trusts_loopback_alone Runtime.usual "custom" (by decide)
  refine ⟨?_, h.1 " //me@[::1]/v1" (by decide)⟩
  exact h.2.1 "h2+x" "LocalHost" (":" ++ Text.ofNat 65535) "?to=//example.com"
    ⟨.char 'h', "2+x", rfl, rfl, by decide⟩ (by decide) (h.2.2 65535 (by decide)).1 (by decide)
    (by decide)

/-- Where only the first pair of brackets is looked at, another name may stand before them. -/
example : @isCloud { Runtime.usual with brackets := .pair } "custom"
    (some "http://evil.example[::1]/v1") = false := by
  decide

/-- An endpoint is trusted in which no name of this machine stands in full. -/
theorem trusts_unclosed_bracket :
    isCloud "custom" (some "http://]@[::1") = false ∧
      ¬ ∃ user host tail, Divides (clean "http://]@[::1") (user ++ host ++ tail) ∧
        IsUser user ∧ IsLoopback host ∧ IsTail tail := by
  refine ⟨by decide, ?_⟩
  rintro ⟨user, host, tail, ⟨lead, rest, heq, -⟩, -, hh, -⟩
  have hnone : ∀ i < 13, ∀ j < 13,
      ¬ IsLoopback (((clean "http://]@[::1").drop i).take j) := by decide +kernel
  have heq : clean "http://]@[::1" = lead ++ "//" ++ user ++ (host ++ (tail ++ rest)) := by
    simpa only [List.append_assoc] using heq
  have hlen := congrArg List.length heq
  have hclean : (clean "http://]@[::1").length = 13 := by decide
  have hpos : 0 < host.length := by
    rw [List.length_pos_iff]
    rintro rfl
    exact absurd hh (by decide)
  have hslash : ("//" : Text).length = 2 := rfl
  simp only [hclean, List.length_append, hslash] at hlen
  have hhost := hnone (lead ++ "//" ++ user).length (by simp only [List.length_append]; omega)
    host.length (by omega)
  rw [heq, List.drop_left, List.take_left] at hhost
  exact hhost hh

end Provider
end ClipActions
