import Mathlib.Data.List.Basic
import Mathlib.Data.List.DropRight
import TileRealm.Text.Blank
import TileRealm.Text.Fold
import TileRealm.Text.Numeral

/-!
# Blanks, case and digits

Folding a name leaves its blanks where they are, so it does not matter which of trimming and folding
is done first (`Text.fold_trim`).  A number that is written in digits is read back if it is within
the limit, and is too large otherwise (`Numeral.readNat_toDigits`).
-/

namespace TileRealm

namespace Text

/-! ### Trimming -/

section Trimming

variable {p : Char → Bool} {cs : List Char}

theorem dropWhile_eq_self (h : ∀ c ∈ cs.head?, p c = false) : cs.dropWhile p = cs := by
  cases cs with
  | nil => rfl
  | cons c cs =>
    rw [List.dropWhile_cons, if_neg]
    simp [h c rfl]

theorem trimBy_eq_self (hhead : ∀ c ∈ cs.head?, p c = false)
    (hlast : ∀ c ∈ cs.getLast?, p c = false) : trimBy p cs = cs := by
  unfold trimBy
  rw [dropWhile_eq_self hhead, dropWhile_eq_self, List.reverse_reverse]
  rwa [List.head?_reverse]

theorem trimBy_eq_self_of_forall (h : ∀ c ∈ cs, p c = false) : trimBy p cs = cs := by
  apply trimBy_eq_self
  · exact fun c hc => h c (List.mem_of_mem_head? hc)
  · exact fun c hc => h c (List.mem_of_mem_getLast? hc)

theorem length_trimBy_le (p : Char → Bool) (cs : List Char) : (trimBy p cs).length ≤ cs.length := by
  unfold trimBy
  have hfront := (List.dropWhile_suffix p (l := cs)).length_le
  have hback := (List.dropWhile_suffix p (l := (cs.dropWhile p).reverse)).length_le
  simp only [List.length_reverse] at hback ⊢
  omega

/-- What is trimmed already does not begin with anything that trimming takes off. -/
theorem head_of_trimBy_eq_self (h : trimBy p cs = cs) : ∀ c ∈ cs.head?, p c = false := by
  intro c hc
  obtain ⟨rest, rfl⟩ := List.head?_eq_some_iff.1 hc
  by_contra hp
  rw [Bool.not_eq_false] at hp
  have hskip : trimBy p (c :: rest) = trimBy p rest := by
    unfold trimBy
    rw [List.dropWhile_cons, if_pos hp]
  have hlen := length_trimBy_le p rest
  rw [← hskip, h, List.length_cons] at hlen
  omega

theorem mem_of_mem_trimBy {c : Char} (h : c ∈ trimBy p cs) : c ∈ cs := by
  unfold trimBy at h
  rw [List.mem_reverse] at h
  have hback := (List.dropWhile_suffix p).subset h
  rw [List.mem_reverse] at hback
  exact (List.dropWhile_suffix p).subset hback

/-- Dropping stops at the first character that is to be kept. -/
theorem dropWhile_append_of_head (h : ∀ c ∈ cs.head?, p c = false) (front : List Char) :
    (front ++ cs).dropWhile p = front.dropWhile p ++ cs := by
  rw [List.dropWhile_append]
  split
  next hfront =>
    rw [List.isEmpty_iff.1 hfront, dropWhile_eq_self h, List.nil_append]
  next => rfl

theorem rdropWhile_append_of_last (h : ∀ c ∈ cs.getLast?, p c = false) (back : List Char) :
    (cs ++ back).rdropWhile p = cs ++ back.rdropWhile p := by
  unfold List.rdropWhile
  rw [List.reverse_append, dropWhile_append_of_head, List.reverse_append, List.reverse_reverse]
  rwa [List.head?_reverse]

theorem head_of_trimBy (p : Char → Bool) (cs : List Char) : ∀ c ∈ (trimBy p cs).head?, p c = false := by
  intro c hc
  have hprefix : trimBy p cs <+: cs.dropWhile p := List.rdropWhile_prefix p _
  have hhead : (cs.dropWhile p).head? = some c := by
    obtain ⟨back, hback⟩ := hprefix
    rw [← hback, List.head?_append, hc, Option.some_or]
  have := List.head?_dropWhile_not p cs
  rwa [hhead] at this

/-- What is trimmed has nothing left to trim. -/
theorem trimBy_trimBy (p : Char → Bool) (cs : List Char) : trimBy p (trimBy p cs) = trimBy p cs := by
  change ((trimBy p cs).dropWhile p).rdropWhile p = trimBy p cs
  rw [dropWhile_eq_self (head_of_trimBy p cs)]
  exact List.rdropWhile_idempotent p _

/-- Trimming takes off all that is to be taken off around a text. -/
theorem trimBy_append {front back : List Char} (hfront : ∀ c ∈ front, p c = true)
    (hback : ∀ c ∈ back, p c = true) (cs : List Char) :
    trimBy p (front ++ cs ++ back) = trimBy p cs := by
  change ((front ++ cs ++ back).dropWhile p).rdropWhile p = (cs.dropWhile p).rdropWhile p
  rw [List.append_assoc, List.dropWhile_append_of_pos hfront, List.dropWhile_append]
  split
  next hcs =>
    rw [List.isEmpty_iff.1 hcs, List.dropWhile_eq_nil_iff.2 hback]
  next =>
    unfold List.rdropWhile
    rw [List.reverse_append, List.dropWhile_append_of_pos]
    exact fun c hc => hback c (List.mem_reverse.1 hc)

/-- Trimming comes from both sides as far as what is to be kept. -/
theorem trimBy_append_append (hne : cs ≠ []) (hhead : ∀ c ∈ cs.head?, p c = false)
    (hlast : ∀ c ∈ cs.getLast?, p c = false) (front back : List Char) :
    trimBy p (front ++ cs ++ back) = front.dropWhile p ++ cs ++ back.rdropWhile p := by
  change ((front ++ cs ++ back).dropWhile p).rdropWhile p = _
  rw [List.append_assoc, dropWhile_append_of_head, ← List.append_assoc, rdropWhile_append_of_last]
  · rwa [List.getLast?_append_of_ne_nil _ hne]
  · rwa [List.head?_append_of_ne_nil _ hne]

theorem trimBy_map {f : Char → Char} (h : ∀ c, p (f c) = p c) (cs : List Char) :
    trimBy p (cs.map f) = (trimBy p cs).map f := by
  have hp : p ∘ f = p := funext h
  unfold trimBy
  rw [List.dropWhile_map, hp, ← List.map_reverse, List.dropWhile_map, hp, ← List.map_reverse]

end Trimming

/-- No character between the space and U+0085 is blank. -/
theorem isBlank_eq_false {c : Char} (hlo : 0x20 < c.toNat) (hhi : c.toNat < 0x85) :
    isBlank c = false := by
  unfold isBlank
  simp only [Bool.or_eq_false_iff, Bool.and_eq_false_iff, decide_eq_false_iff_not,
    beq_eq_false_iff_ne]
  omega

theorem isBlank_of_isDigit {c : Char} (h : c.isDigit = true) : isBlank c = false := by
  simp only [Char.isDigit, Bool.and_eq_true, decide_eq_true_eq, ge_iff_le, UInt32.le_iff_toNat_le]
    at h
  apply isBlank_eq_false
  · exact Nat.lt_of_lt_of_le (by decide) h.1
  · exact Nat.lt_of_le_of_lt h.2 (by decide)

theorem isBlank_toLower (c : Char) : isBlank c.toLower = isBlank c := by
  unfold Char.toLower
  split
  next h =>
    -- Neither a capital nor its small letter is blank.
    obtain ⟨hlo, hhi⟩ := h
    rw [ge_iff_le, UInt32.le_iff_toNat_le] at hlo
    rw [UInt32.le_iff_toNat_le] at hhi
    have hlo' : 65 ≤ c.val.toNat := hlo
    have hhi' : c.val.toNat ≤ 90 := hhi
    have hsmall : (c.val + ('a'.val - 'A'.val)).toNat = c.val.toNat + 32 := by
      rw [UInt32.toNat_add, show ('a'.val - 'A'.val).toNat = 32 from rfl]
      exact Nat.mod_eq_of_lt (by omega)
    rw [isBlank_eq_false, isBlank_eq_false]
    all_goals simp only [Char.toNat, hsmall]; omega
  next => rfl

/-- Trimming a name and folding it may be done in either order. -/
theorem fold_trim (s : String) : fold (trim s) = trim (fold s) := by
  unfold fold trim trimChars
  rw [String.toList_ofList, String.toList_ofList, trimBy_map isBlank_toLower]

end Text

namespace Numeral

/-! ### Reading digits -/

theorem digit?_of_isDigit {c : Char} (h : c.isDigit = true) :
    digit? c = some (c.toNat - '0'.toNat) := by
  unfold digit?
  exact if_pos h

theorem le_ofDigitChars (m : Nat) (ds : List Char) : m ≤ Nat.ofDigitChars 10 ds m := by
  induction ds generalizing m with
  | nil => exact Nat.le_refl m
  | cons c ds ih =>
    rw [Nat.ofDigitChars_cons]
    have := ih (10 * m + (c.toNat - '0'.toNat))
    omega

/-- The limit is passed on the way if the whole number is beyond it, as digits only add to it. -/
theorem readDigits_eq {ds : List Char} (hds : ∀ c ∈ ds, c.isDigit = true) {limit : Nat}
    (past : NumeralError) {m : Nat} (hm : m ≤ limit) :
    readDigits limit past m ds =
      if Nat.ofDigitChars 10 ds m ≤ limit then .ok (Nat.ofDigitChars 10 ds m) else .error past := by
  induction ds generalizing m with
  | nil => exact (if_pos hm).symm
  | cons c ds ih =>
    unfold readDigits
    rw [digit?_of_isDigit (hds c List.mem_cons_self), Nat.ofDigitChars_cons]
    dsimp only
    split
    next hstep => exact ih (fun d hd => hds d (List.mem_cons_of_mem c hd)) hstep
    next hstep =>
      have := le_ofDigitChars (10 * m + (c.toNat - '0'.toNat)) ds
      rw [if_neg (by omega)]

theorem readNat_of_isDigit {ds : List Char} (hne : ds ≠ []) (hds : ∀ c ∈ ds, c.isDigit = true)
    (limit : Nat) : readNat limit ds =
      if Nat.ofDigitChars 10 ds 0 ≤ limit then .ok (Nat.ofDigitChars 10 ds 0)
      else .error .tooLarge := by
  rw [← readDigits_eq hds .tooLarge (Nat.zero_le limit)]
  unfold readNat
  split
  next => exact absurd rfl hne
  next =>
    -- A sign is no digit.
    exact absurd (hds '+' List.mem_cons_self) (by decide)
  next => rfl

theorem le_of_readDigits {limit : Nat} {past : NumeralError} {cs : List Char} {m n : Nat}
    (hm : m ≤ limit) (h : readDigits limit past m cs = .ok n) : n ≤ limit := by
  induction cs generalizing m with
  | nil =>
    cases h
    exact hm
  | cons c cs ih =>
    unfold readDigits at h
    split at h
    next => cases h
    next d hd =>
      split at h
      next hstep => exact ih hstep h
      next => cases h

/-- A number that is read is within the limit. -/
theorem le_of_readNat {limit : Nat} {cs : List Char} {n : Nat} (h : readNat limit cs = .ok n) :
    n ≤ limit := by
  unfold readNat at h
  split at h
  next => cases h
  next =>
    unfold readSigned at h
    split at h
    next => cases h
    next => exact le_of_readDigits (Nat.zero_le limit) h
  next => exact le_of_readDigits (Nat.zero_le limit) h

theorem isDigit_of_mem_toDigits {n : Nat} {c : Char} (h : c ∈ Nat.toDigits 10 n) :
    c.isDigit = true :=
  Nat.isDigit_of_mem_toDigits (by omega) (by omega) h

/-- A number in digits is read back if it is within the limit. -/
theorem readNat_toDigits (limit n : Nat) :
    readNat limit (Nat.toDigits 10 n) = if n ≤ limit then .ok n else .error .tooLarge := by
  rw [readNat_of_isDigit Nat.toDigits_ne_nil fun c => isDigit_of_mem_toDigits,
    Nat.ofDigitChars_toDigits (by omega) (by omega)]

end Numeral

end TileRealm
