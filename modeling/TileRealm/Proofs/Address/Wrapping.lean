import TileRealm.Proofs.Address.Endpoint

/-!
# What stands around an address

In an address text there may be a scheme and user information in front of host and port, a path
behind them, and blanks around it all (`Endpoint.Wrapping`).  Reading takes these off and leaves host
and port as they stand (`Endpoint.bare_around`).
-/

namespace TileRealm

namespace Endpoint

/-- What is left of an address text when all that stands around host and port is taken off. -/
def bare (cs : List Char) : List Char := afterUser (authority (afterScheme (Text.trimChars cs)))

/-- A text of which nothing is to be taken off, and which ends in a digit as a port does. -/
structure IsBare (cs : List Char) : Prop where
  ne_nil : cs ≠ []
  head_not_blank : ∀ c ∈ cs.head?, Text.isBlank c = false
  last_isDigit : ∀ c ∈ cs.getLast?, c.isDigit = true
  slash_not_mem : '/' ∉ cs
  at_not_mem : '@' ∉ cs

/-- What may stand around host and port in an address text. -/
structure Wrapping where
  /-- Blanks in front of everything. -/
  front : List Char := []
  /-- What a `://` stands behind. -/
  scheme : Option (List Char) := none
  /-- What an at sign stands behind. -/
  user : Option (List Char) := none
  path : List Char := []
  /-- Blanks behind everything. -/
  back : List Char := []
  front_blank : ∀ c ∈ front, Text.isBlank c = true := by simp
  back_blank : ∀ c ∈ back, Text.isBlank c = true := by simp
  /-- A scheme may have letters, digits, plus and minus signs and dots, and more. -/
  scheme_plain : ∀ s ∈ scheme, ':' ∉ s := by simp
  user_plain : ∀ u ∈ user, '/' ∉ u := by simp
  path_head : ∀ c ∈ path.head?, c = '/' := by simp
  /-- Where there is no scheme, what stands in front of a `://` in the path would be taken for it. -/
  path_plain : scheme = none → ¬ [':', '/', '/'] <:+: path := by simp

namespace Wrapping

/-- The scheme with what stands behind it. -/
def schemePart (w : Wrapping) : List Char := w.scheme.elim [] (· ++ [':', '/', '/'])

/-- The user information with what stands behind it. -/
def userPart (w : Wrapping) : List Char := w.user.elim [] (· ++ ['@'])

/-- A text with everything around it. -/
def around (w : Wrapping) (cs : List Char) : List Char :=
  w.front ++ (w.schemePart ++ w.userPart ++ cs ++ w.path) ++ w.back

end Wrapping

/-! ### Taking off one part after the other -/

/-- User information with its at sign, or nothing. -/
structure IsUserPart (cs : List Char) : Prop where
  slash_not_mem : '/' ∉ cs
  eq_nil_or : cs = [] ∨ ∃ user, cs = user ++ ['@']

theorem Wrapping.isUserPart (w : Wrapping) : IsUserPart w.userPart := by
  unfold userPart
  cases h : w.user with
  | none => exact ⟨by simp, .inl rfl⟩
  | some user => exact ⟨by simpa using w.user_plain user h, .inr ⟨user, rfl⟩⟩

/-- An at sign is not blank, so it stays. -/
theorem IsUserPart.dropWhile_isBlank {cs : List Char} (h : IsUserPart cs) :
    IsUserPart (cs.dropWhile Text.isBlank) := by
  refine ⟨fun hc => h.slash_not_mem ((List.dropWhile_suffix _).subset hc), ?_⟩
  rcases h.eq_nil_or with rfl | ⟨user, rfl⟩
  · exact .inl rfl
  · refine .inr ⟨user.dropWhile Text.isBlank, Text.dropWhile_append_of_head ?_ user⟩
    intro c hc
    rw [List.head?_singleton, Option.mem_some_iff] at hc
    rw [← hc]
    rfl

theorem IsUserPart.afterUser_append {user cs : List Char} (huser : IsUserPart user) (h : IsBare cs) :
    afterUser (user ++ cs) = cs := by
  rcases huser.eq_nil_or with rfl | ⟨user, rfl⟩
  · exact afterUser_of_not_mem h.at_not_mem
  · unfold afterUser
    rw [List.append_assoc, List.singleton_append, splitLast?_append h.at_not_mem]

/-- No `://` begins in a text without slashes and ends behind it, if the text does not end in a
colon. -/
theorem not_infix_append {cs path : List Char} (h : '/' ∉ cs) (hlast : cs.getLast? ≠ some ':')
    (hpath : ¬ [':', '/', '/'] <:+: path) : ¬ [':', '/', '/'] <:+: cs ++ path := by
  induction cs with
  | nil => exact hpath
  | cons c cs ih =>
    rw [List.mem_cons, not_or] at h
    rw [List.cons_append, List.infix_cons_iff, not_or]
    constructor
    · intro hprefix
      obtain ⟨rfl, hrest⟩ := List.cons_prefix_cons.1 hprefix
      cases cs with
      | nil => exact hlast rfl
      | cons d cs =>
        obtain ⟨rfl, -⟩ := List.cons_prefix_cons.1 hrest
        exact h.2 List.mem_cons_self
    · refine ih h.2 fun hc => hlast ?_
      rw [List.getLast?_cons, hc]
      rfl

section Around

variable {cs : List Char}

/-- Trimming goes as far as the scheme or the user information, and as far as the path. -/
theorem trimChars_around (h : IsBare cs) (w : Wrapping) :
    Text.trimChars (w.around cs) =
      (w.schemePart ++ w.userPart).dropWhile Text.isBlank ++ cs ++ w.path.rdropWhile Text.isBlank := by
  unfold Text.trimChars Wrapping.around
  rw [Text.trimBy_append w.front_blank w.back_blank]
  refine Text.trimBy_append_append h.ne_nil h.head_not_blank ?_ _ _
  exact fun c hc => Text.isBlank_of_isDigit (h.last_isDigit c hc)

theorem afterScheme_around (h : IsBare cs) (w : Wrapping) :
    ∃ user path, afterScheme (Text.trimChars (w.around cs)) = user ++ cs ++ path ∧
      IsUserPart user ∧ ∀ c ∈ path.head?, c = '/' := by
  have hprefix := List.rdropWhile_prefix Text.isBlank w.path
  have hpath : ∀ c ∈ (w.path.rdropWhile Text.isBlank).head?, c = '/' := by
    intro c hc
    obtain ⟨back, hback⟩ := hprefix
    refine w.path_head c ?_
    rw [← hback, List.head?_append, hc]
    rfl
  rw [trimChars_around h]
  cases hscheme : w.scheme with
  | some scheme =>
    refine ⟨w.userPart, _, ?_, w.isUserPart, hpath⟩
    have hpart : w.schemePart ++ w.userPart = scheme ++ ':' :: '/' :: '/' :: w.userPart := by
      unfold Wrapping.schemePart
      rw [hscheme, Option.elim_some, List.append_assoc]
      rfl
    have hcolon : ∀ c ∈ (':' :: '/' :: '/' :: w.userPart).head?, Text.isBlank c = false := by
      intro c hc
      rw [List.head?_cons, Option.mem_some_iff] at hc
      rw [← hc]
      rfl
    have hscheme' : ':' ∉ scheme.dropWhile Text.isBlank := fun hc =>
      w.scheme_plain scheme hscheme ((List.dropWhile_suffix _).subset hc)
    rw [hpart, Text.dropWhile_append_of_head hcolon, ← afterScheme_append hscheme' (w.userPart ++ cs ++ _)]
    simp only [List.append_assoc, List.cons_append]
  | none =>
    have hpart : w.schemePart ++ w.userPart = w.userPart := by
      unfold Wrapping.schemePart
      rw [hscheme]
      rfl
    have huser := w.isUserPart.dropWhile_isBlank
    rw [hpart]
    refine ⟨_, _, afterScheme_of_not_infix ?_, huser, hpath⟩
    refine not_infix_append ?_ ?_ fun hc => w.path_plain hscheme (hc.trans hprefix.isInfix)
    · rw [List.mem_append, not_or]
      exact ⟨huser.slash_not_mem, h.slash_not_mem⟩
    · rw [List.getLast?_append_of_ne_nil _ h.ne_nil]
      exact fun hc => absurd (h.last_isDigit ':' hc) (by decide)

/-- Whatever stands around host and port is taken off, and nothing else. -/
theorem bare_around (h : IsBare cs) (w : Wrapping) : bare (w.around cs) = cs := by
  obtain ⟨user, path, hscheme, huser, hpath⟩ := afterScheme_around h w
  have hslash : '/' ∉ user ++ cs := by
    rw [List.mem_append, not_or]
    exact ⟨huser.slash_not_mem, h.slash_not_mem⟩
  unfold bare
  rw [hscheme, authority_append (List.append_ne_nil_of_right_ne_nil user h.ne_nil) hslash hpath,
    huser.afterUser_append h]

end Around

end Endpoint

end TileRealm
