import Mathlib.Data.List.Infix
import Mathlib.Data.List.TakeWhile
import TileRealm.Address.Endpoint
import TileRealm.Proofs.Text

/-!
# Reading endpoints

What each part that is taken off an address text does to a text without that part, and from these
the endpoint of a host and a port in digits (`Endpoint.parseChars_append_toDigits`).
-/

namespace TileRealm

namespace Endpoint

/-! ### Parts that are not there -/

section Parts

variable {cs : List Char}

theorem afterScheme_of_not_infix (h : ¬ [':', '/', '/'] <:+: cs) : afterScheme cs = cs := by
  have hnone : afterScheme.find? cs = none := by
    induction cs using afterScheme.find?.induct with
    | case1 => rfl
    | case2 rest => exact absurd ⟨[], rest, rfl⟩ h
    | case3 c rest hno ih =>
      rw [afterScheme.find?]
      · exact ih fun hrest => h (hrest.trans (List.suffix_cons c rest).isInfix)
      · exact hno
  unfold afterScheme
  rw [hnone, Option.getD_none]

theorem afterScheme_of_not_mem (h : '/' ∉ cs) : afterScheme cs = cs :=
  afterScheme_of_not_infix fun hc => h (hc.subset (by decide))

theorem afterScheme_append {scheme : List Char} (h : ':' ∉ scheme) (rest : List Char) :
    afterScheme (scheme ++ ':' :: '/' :: '/' :: rest) = rest := by
  have hsome : afterScheme.find? (scheme ++ ':' :: '/' :: '/' :: rest) = some rest := by
    induction scheme with
    | nil => rfl
    | cons c scheme ih =>
      rw [List.mem_cons, not_or] at h
      rw [List.cons_append, afterScheme.find?]
      · exact ih h.2
      · intro back hc
        exact absurd hc.symm h.1
  unfold afterScheme
  rw [hsome, Option.getD_some]

/-- A path is cut off, and all of it. -/
theorem authority_append {path : List Char} (hne : cs ≠ []) (h : '/' ∉ cs)
    (hpath : ∀ c ∈ path.head?, c = '/') : authority (cs ++ path) = cs := by
  have hslash : ∀ c ∈ cs, (c == '/') = false := by
    intro c hc
    simp only [beq_eq_false_iff_ne]
    rintro rfl
    exact h hc
  have hpath' : (path.rdropWhile (· == '/')).takeWhile (· != '/') = [] := by
    cases hcut : path.rdropWhile (· == '/') with
    | nil => rfl
    | cons c rest =>
      obtain ⟨back, hback⟩ := List.rdropWhile_prefix (· == '/') path
      rw [hcut] at hback
      rw [hpath c (by rw [← hback]; rfl)]
      rfl
  have htrim := Text.trimBy_append_append hne (fun c hc => hslash c (List.mem_of_mem_head? hc))
    (fun c hc => hslash c (List.mem_of_mem_getLast? hc)) [] path
  rw [List.dropWhile_nil, List.nil_append] at htrim
  unfold authority
  rw [htrim, List.takeWhile_append_of_pos, hpath', List.append_nil]
  intro c hc
  simp [bne, hslash c hc]

theorem authority_of_not_mem (h : '/' ∉ cs) : authority cs = cs := by
  by_cases hne : cs = []
  · rw [hne]
    rfl
  · have hpath : authority (cs ++ []) = cs := authority_append hne h (by simp)
    rwa [List.append_nil] at hpath

theorem splitLast?_eq_none_iff {c : Char} : splitLast? c cs = none ↔ c ∉ cs := by
  induction cs with
  | nil => simp [splitLast?]
  | cons d cs ih =>
    rw [List.mem_cons, not_or, ← ih]
    cases h : splitLast? c cs with
    | none => simp [splitLast?, h, eq_comm]
    | some parts => simp [splitLast?, h]

theorem splitLast?_append {c : Char} {back : List Char} (h : c ∉ back) (front : List Char) :
    splitLast? c (front ++ c :: back) = some (front, back) := by
  induction front with
  | nil =>
    rw [List.nil_append, splitLast?, splitLast?_eq_none_iff.2 h]
    exact if_pos rfl
  | cons d front ih =>
    rw [List.cons_append, splitLast?, ih]

theorem splitLast?_eq_some_iff {c : Char} {front back : List Char} :
    splitLast? c cs = some (front, back) ↔ cs = front ++ c :: back ∧ c ∉ back := by
  constructor
  · intro h
    induction cs generalizing front with
    | nil => cases h
    | cons d cs ih =>
      unfold splitLast? at h
      split at h
      next front' back' hrest =>
        cases h
        obtain ⟨rfl, hback⟩ := ih hrest
        exact ⟨rfl, hback⟩
      next hrest =>
        split at h
        next hd =>
          cases h
          exact ⟨by rw [hd, List.nil_append], splitLast?_eq_none_iff.1 hrest⟩
        next => cases h
  · rintro ⟨rfl, hback⟩
    exact splitLast?_append hback front

theorem afterUser_of_not_mem (h : '@' ∉ cs) : afterUser cs = cs := by
  unfold afterUser
  rw [splitLast?_eq_none_iff.2 h]

theorem hostAndPort?_of_head_ne (h : cs.head? ≠ some '[') : hostAndPort? cs = splitLast? ':' cs := by
  unfold hostAndPort?
  split
  next => exact absurd rfl h
  next => rfl

end Parts

/-! ### Host and port -/

/-- Whether a host can stand in an address text as it is: there is nothing to trim, and no character
in it marks another part of the text. -/
structure IsPlain (host : List Char) : Prop where
  ne_nil : host ≠ []
  trimmed : Text.trimChars host = host
  slash_not_mem : '/' ∉ host
  at_not_mem : '@' ∉ host
  bracket_not_mem : '[' ∉ host

theorem not_mem_append_toDigits {host : List Char} {c : Char} (hhost : c ∉ host) (hcolon : c ≠ ':')
    (hdigit : c.isDigit = false) (n : Nat) : c ∉ host ++ ':' :: Nat.toDigits 10 n := by
  rw [List.mem_append, List.mem_cons, not_or, not_or]
  refine ⟨hhost, hcolon, fun hc => ?_⟩
  rw [Numeral.isDigit_of_mem_toDigits hc] at hdigit
  cases hdigit

theorem trimChars_toDigits (n : Nat) : Text.trimChars (Nat.toDigits 10 n) = Nat.toDigits 10 n :=
  Text.trimBy_eq_self_of_forall fun _ hc =>
    Text.isBlank_of_isDigit (Numeral.isDigit_of_mem_toDigits hc)

theorem colon_not_mem_toDigits (n : Nat) : ':' ∉ Nat.toDigits 10 n := fun hc =>
  absurd (Numeral.isDigit_of_mem_toDigits hc) (by decide)

theorem isDigit_last_append_toDigits (host : List Char) (n : Nat) :
    ∀ c ∈ (host ++ ':' :: Nat.toDigits 10 n).getLast?, c.isDigit = true := by
  intro c hc
  rw [List.getLast?_append_of_ne_nil _ (List.cons_ne_nil _ _),
    List.getLast?_cons_of_ne_nil Nat.toDigits_ne_nil] at hc
  exact Numeral.isDigit_of_mem_toDigits (List.mem_of_mem_getLast? hc)

theorem trimChars_append_toDigits {host : List Char} (h : IsPlain host) (n : Nat) :
    Text.trimChars (host ++ ':' :: Nat.toDigits 10 n) = host ++ ':' :: Nat.toDigits 10 n := by
  apply Text.trimBy_eq_self
  · rw [List.head?_append_of_ne_nil _ h.ne_nil]
    exact Text.head_of_trimBy_eq_self h.trimmed
  · exact fun c hc => Text.isBlank_of_isDigit (isDigit_last_append_toDigits host n c hc)

/-- A plain host and a port in digits are an endpoint if the port is one. -/
theorem parseChars_append_toDigits {host : List Char} (h : IsPlain host) (n : Nat) :
    parseChars (host ++ ':' :: Nat.toDigits 10 n) =
      if 1 ≤ n ∧ n ≤ 65535 then some ⟨String.ofList host, UInt16.ofNat n⟩ else none := by
  have hslash : '/' ∉ host ++ ':' :: Nat.toDigits 10 n :=
    not_mem_append_toDigits h.slash_not_mem (by decide) (by decide) n
  have huser : '@' ∉ host ++ ':' :: Nat.toDigits 10 n :=
    not_mem_append_toDigits h.at_not_mem (by decide) (by decide) n
  have hbracket : (host ++ ':' :: Nat.toDigits 10 n).head? ≠ some '[' := by
    rw [List.head?_append_of_ne_nil _ h.ne_nil]
    exact fun hc => h.bracket_not_mem (List.mem_of_mem_head? hc)
  unfold parseChars
  rw [trimChars_append_toDigits h, afterScheme_of_not_mem hslash, authority_of_not_mem hslash,
    afterUser_of_not_mem huser, hostAndPort?_of_head_ne hbracket, splitLast?_append (colon_not_mem_toDigits n)]
  simp only [Option.bind_eq_bind, Option.bind_some, h.trimmed, trimChars_toDigits,
    Numeral.readNat_toDigits]
  have hempty : host.isEmpty = false := by simp [h.ne_nil]
  by_cases hlimit : n ≤ 65535
  · rw [if_pos hlimit, Except.toOption, Option.bind_some, hempty, Bool.false_or]
    by_cases hzero : n = 0
    · simp [hzero]
    · rw [if_neg (by simpa using hzero), if_pos (by omega)]
      rfl
  · rw [if_neg hlimit, if_neg (by omega)]
    rfl

end Endpoint

end TileRealm
