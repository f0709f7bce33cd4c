import ClipActions.Proofs.Text.Numerals
import ClipActions.Proofs.Text.Splitting
import ClipActions.Url.Authority
import Mathlib.Data.List.TakeWhile

/-!
The grammar of a URL up to the end of its authority, stated apart from the code that looks for the
authority, and what that code finds in it.
-/
namespace ClipActions.Url

/-- A letter, and then symbols that may stand in the name of a scheme. -/
def IsScheme (t : Text) : Prop :=
  ∃ s rest, t = s :: rest ∧ s.isAsciiLetter = true ∧ ∀ r ∈ rest, isSchemeSymbol r = true

/-- What may stand before the two slashes: nothing, or a scheme and a colon. -/
inductive IsLead : Text → Prop
  | bare : IsLead []
  | scheme {t : Text} (h : IsScheme t) : IsLead (t ++ ":")

/-- What may stand after an authority: nothing, or a text that begins with an end of one. -/
def IsRest (t : Text) : Prop := ∀ s ∈ t.head?, endsAuthority s = true

instance (t : Text) : Decidable (IsRest t) := inferInstanceAs (Decidable (∀ s ∈ t.head?, _))

/-- A URL has an authority: two slashes come before it, and no end of one stands in it. -/
def Divides (url authority : Text) : Prop :=
  ∃ lead rest, url = lead ++ "//" ++ authority ++ rest ∧ IsLead lead ∧
    (∀ s ∈ authority, endsAuthority s = false) ∧ IsRest rest

/-- A number in decimal notation that a port may have. -/
def IsPort (t : Text) : Prop :=
  ∃ ds : List Nat, ds ≠ [] ∧ (∀ d ∈ ds, d < 10) ∧ t = ds.map Radix.digit ∧
    Radix.value 10 ds ≤ 65535

/-- What may stand after a host: nothing, or a colon and at most a port. -/
inductive IsTail : Text → Prop
  | none : IsTail []
  | colon : IsTail ":"
  | port {t : Text} (h : IsPort t) : IsTail (":" ++ t)

/-- What may stand before a host: nothing, or some text and an at sign. -/
inductive IsUser : Text → Prop
  | none : IsUser []
  | name (t : Text) : IsUser (t ++ "@")

variable {t u : Text} {s : Symbol}

theorem isNumeral_iff : s.IsNumeral ↔ isSchemeSymbol s = true := by
  simp [Symbol.IsNumeral, isSchemeSymbol, or_assoc, or_comm, or_left_comm]

/-- The symbols that a scheme, a host of this machine or a port is written with. -/
def IsPlain (s : Symbol) : Prop :=
  s.IsNumeral ∨ s = .char ':' ∨ s = .char '[' ∨ s = .char ']'

instance (s : Symbol) : Decidable (IsPlain s) := inferInstanceAs (Decidable (_ ∨ _ ∨ _ ∨ _))

theorem IsPlain.ne {r : Symbol} (hs : IsPlain s) (hr : ¬ IsPlain r) : s ≠ r := by
  rintro rfl
  exact hr hs

theorem IsPlain.ascii (h : IsPlain s) : s.code < 0x80 := by
  obtain h | rfl | rfl | rfl := h
  · exact h.ascii
  all_goals decide

theorem IsPlain.endsAuthority (h : IsPlain s) : endsAuthority s = false := by
  simp [Url.endsAuthority, h.ne (by decide : ¬ IsPlain (.char '/')),
    h.ne (by decide : ¬ IsPlain (.char '?')), h.ne (by decide : ¬ IsPlain (.char '#'))]

/-! The authority. -/

theorem isScheme_iff :
    IsScheme t ↔ (t.head?.any Symbol.isAsciiLetter && t.all isSchemeSymbol) = true := by
  rw [Bool.and_eq_true, List.all_eq_true]
  cases t with
  | nil => simp [IsScheme]
  | cons s rest =>
    rw [List.head?_cons, Option.any_some, List.forall_mem_cons]
    constructor
    · rintro ⟨s', rest', heq, hs, hrest⟩
      cases heq
      exact ⟨hs, by simp [isSchemeSymbol, hs], hrest⟩
    · rintro ⟨hs, -, hrest⟩
      exact ⟨s, rest, rfl, hs, hrest⟩

theorem IsScheme.isPlain (h : IsScheme t) : t.Of IsPlain := by
  rw [isScheme_iff, Bool.and_eq_true, List.all_eq_true] at h
  exact fun s hs => .inl (isNumeral_iff.2 (h.2 s hs))

theorem afterScheme_append (ht : IsScheme t) (u : Text) : afterScheme (t ++ ":" ++ u) = u := by
  have hcolon : .char ':' ∉ t := by
    intro h
    rw [isScheme_iff, Bool.and_eq_true, List.all_eq_true] at ht
    exact absurd (ht.2 _ h) (by decide)
  have hcut : (t ++ ":" ++ u).cut (.char ':') = (t, some u) := by
    rw [List.append_assoc]
    exact Text.cut_append hcolon u
  simp only [afterScheme, hcut, isScheme_iff.1 ht, if_true]

theorem afterScheme_lead (t : Text) : ∃ lead, IsLead lead ∧ t = lead ++ afterScheme t := by
  obtain ⟨-, hcut⟩ | ⟨scheme, rest, ht, -, hcut⟩ := Text.cut_cases (.char ':') t
  · exact ⟨[], .bare, by simp only [afterScheme, hcut, List.nil_append]⟩
  · by_cases h : IsScheme scheme
    · have ht : t = scheme ++ ":" ++ rest := by
        rw [ht, List.append_assoc]
        rfl
      exact ⟨scheme ++ ":", .scheme h, by rw [ht, afterScheme_append h]⟩
    · rw [isScheme_iff] at h
      exact ⟨[], .bare, by simp only [afterScheme, hcut, if_neg h, List.nil_append]⟩

theorem isRest_dropWhile (t : Text) : IsRest (t.dropWhile (!endsAuthority ·)) := by
  intro s hs
  have h := List.head?_dropWhile_not (!endsAuthority ·) t
  rw [Option.mem_def.1 hs] at h
  simpa using h

/-- An authority that is not empty is found where the grammar has it. -/
theorem divides_authority {url : Text} (h : authority url ≠ []) :
    Divides (clean url) (authority url) := by
  obtain ⟨lead, hlead, hclean⟩ := afterScheme_lead (clean url)
  have hcases : ∃ rest, afterScheme (clean url) = "//" ++ rest ∧
      authority url = rest.takeWhile (!endsAuthority ·) := by
    unfold authority at h ⊢
    split at h
    · rename_i rest hrest
      rw [hrest]
      exact ⟨rest, rfl, rfl⟩
    · exact absurd rfl h
  obtain ⟨rest, hrest, ha⟩ := hcases
  rw [ha]
  refine ⟨lead, rest.dropWhile (!endsAuthority ·), ?_, hlead, ?_, isRest_dropWhile rest⟩
  · rw [List.append_assoc, List.append_assoc, List.takeWhile_append_dropWhile, ← hrest]
    exact hclean
  · intro s hs
    simpa using List.mem_takeWhile_imp hs

theorem lt_code_of_isAsciiLetter (h : s.isAsciiLetter = true) : 0x20 < s.code := by
  cases s with
  | lone half => cases h
  | char c =>
    simp only [Symbol.isAsciiLetter, Bool.or_eq_true, Bool.and_eq_true, decide_eq_true_eq] at h
    obtain ⟨h, -⟩ | ⟨h, -⟩ := h
    · exact Nat.lt_of_lt_of_le (by decide : 0x20 < 'a'.toNat) h
    · exact Nat.lt_of_lt_of_le (by decide : 0x20 < 'A'.toNat) h

/-- A code point that stays in a URL wherever it stands. -/
def isKept (s : Symbol) : Bool := s ≠ .char '\t' ∧ s ≠ .char '\r' ∧ s ≠ .char '\n'

theorem clean_eq (t : Text) : clean t = (t.dropWhile (·.code ≤ 0x20)).filter isKept := rfl

theorem IsPlain.isKept (h : IsPlain s) : isKept s = true := by
  simp [Url.isKept, h.ne (by decide : ¬ IsPlain (.char '\t')),
    h.ne (by decide : ¬ IsPlain (.char '\r')), h.ne (by decide : ¬ IsPlain (.char '\n'))]

theorem isRest_filter {rest : Text} (h : IsRest rest) : IsRest (rest.filter isKept) := by
  intro s hs
  cases rest with
  | nil => cases hs
  | cons r rest =>
    have hend : endsAuthority r = true := h r rfl
    have hkept : isKept r = true := by
      simp only [endsAuthority, Bool.or_eq_true, decide_eq_true_eq] at hend
      obtain (rfl | rfl) | rfl := hend <;> decide
    rw [List.filter_cons_of_pos hkept] at hs
    cases hs
    exact hend

/-- Nothing is taken away from the front of a URL that is plain up to its authority. -/
theorem clean_front {scheme authority : Text} (hs : IsScheme scheme) (ha : authority.Of IsPlain)
    {rest : Text} (hr : IsRest rest) :
    ∃ left, IsRest left ∧
      clean (scheme ++ "://" ++ authority ++ rest) = scheme ++ "://" ++ authority ++ left := by
  have hfront : (scheme ++ "://" ++ authority).filter isKept = scheme ++ "://" ++ authority := by
    have hslashes : ∀ s ∈ ("://" : Text), isKept s = true := by decide
    rw [List.filter_eq_self]
    intro s hmem
    obtain (h | h) | h := (List.mem_append.1 hmem).imp_left List.mem_append.1
    · exact (hs.isPlain s h).isKept
    · exact hslashes s h
    · exact (ha s h).isKept
  refine ⟨rest.filter isKept, isRest_filter hr, ?_⟩
  obtain ⟨r, t, rfl, hr, -⟩ := hs
  have hdrop : ∀ u : Text, (r :: u).dropWhile (·.code ≤ 0x20) = r :: u := fun u =>
    List.dropWhile_cons_of_neg (by simpa using lt_code_of_isAsciiLetter hr)
  rw [clean_eq, List.append_assoc, List.append_assoc, List.cons_append, hdrop, ← List.cons_append,
    ← List.append_assoc, ← List.append_assoc, List.filter_append, hfront]

/-- The authority of a URL of the grammar that is plain up to the end of its authority. -/
theorem authority_eq {scheme authority rest : Text} (hs : IsScheme scheme)
    (ha : authority.Of IsPlain) (hr : IsRest rest) :
    Url.authority (scheme ++ "://" ++ authority ++ rest) = authority := by
  obtain ⟨left, hleft, hclean⟩ := clean_front hs ha hr
  have hafter : afterScheme (scheme ++ "://" ++ authority ++ left) = "//" ++ (authority ++ left) := by
    have hcolon : scheme ++ "://" ++ authority ++ left =
        scheme ++ ":" ++ ("//" ++ (authority ++ left)) := by
      simp [Text.ofString]
    rw [hcolon, afterScheme_append hs]
  have hend : left.takeWhile (!endsAuthority ·) = [] := by
    cases left with
    | nil => rfl
    | cons s left => rw [List.takeWhile_cons_of_neg (by simpa using hleft s rfl)]
  unfold Url.authority
  rw [hclean, hafter]
  change (authority ++ left).takeWhile (!endsAuthority ·) = authority
  rw [List.takeWhile_append_of_pos fun s h => by simpa using (ha s h).endsAuthority, hend,
    List.append_nil]

/-! The port. -/

theorem digits_of_mapM {ds : List Nat} (h : t.mapM Symbol.digit? = some ds) :
    (∀ d ∈ ds, d < 10) ∧ t = ds.map Radix.digit := by
  induction t generalizing ds with
  | nil => simp_all
  | cons s t ih =>
    rw [List.mapM_cons] at h
    obtain ⟨d, hd, h⟩ := Option.bind_eq_some_iff.1 h
    obtain ⟨ds, hds, h⟩ := Option.bind_eq_some_iff.1 h
    cases h
    obtain ⟨hlt, rfl⟩ := Radix.digit?_some hd
    obtain ⟨hall, rfl⟩ := ih hds
    exact ⟨List.forall_mem_cons.2 ⟨hlt, hall⟩, rfl⟩

theorem mapM_digits {ds : List Nat} (h : ∀ d ∈ ds, d < 10) :
    (ds.map Radix.digit).mapM Symbol.digit? = some ds := by
  induction ds with
  | nil => rfl
  | cons d ds ih =>
    rw [List.forall_mem_cons] at h
    rw [List.map_cons, List.mapM_cons, Radix.digit?_digit d h.1, ih h.2]
    rfl

/-- The texts that are read as numbers of a port are those of the grammar. -/
theorem isPort_iff : IsPort t ↔ (decimal? t).any (· ≤ 65535) = true := by
  unfold decimal?
  constructor
  · rintro ⟨ds, hne, hlt, rfl, hle⟩
    simp [hne, mapM_digits hlt, hle]
  · intro h
    split at h
    · cases h
    · rename_i hne
      cases hds : t.mapM Symbol.digit? with
      | none => simp [hds] at h
      | some ds =>
        obtain ⟨hlt, rfl⟩ := digits_of_mapM hds
        refine ⟨ds, by simpa using hne, hlt, rfl, ?_⟩
        simpa [hds] using h

theorem IsPort.ofNumerals (h : IsPort t) : t.OfNumerals := by
  obtain ⟨ds, -, hlt, rfl, -⟩ := h
  intro s hs
  obtain ⟨d, hd, rfl⟩ := List.mem_map.1 hs
  exact .inl (Radix.isAsciiDigit_digit d (hlt d hd))

/-- Every number up to the greatest port is a port as it is written out. -/
theorem isPort_ofNat {n : Nat} (h : n ≤ 65535) : IsPort (Text.ofNat n) := by
  have hne := Text.ofNat_ne_nil n
  refine ⟨Radix.digits 10 n, ?_, Radix.digits_lt (by decide) n, rfl, ?_⟩
  · rintro hds
    exact hne (by rw [Text.ofNat, Radix.write, hds, List.map_nil])
  · rwa [Radix.value_digits (by decide)]

end ClipActions.Url
