import TileRealm.Json.Reader
import TileRealm.Json.Writer
import TileRealm.Proofs.Text

/-!
# Written tokens

The strings and numbers that are written are read back: each escaped character is one piece of a string
and stands for itself (`Json.exists_pieces_escape`), and the digits of a number end where they are
followed by what may stand behind a value (`Json.Follows`).
-/

namespace TileRealm

namespace Numeral

theorem head?_toDigits_eq_zero {n : Nat} (h : (Nat.toDigits 10 n).head? = some '0') : n = 0 := by
  induction n using Nat.strongRecOn with
  | ind n ih =>
    rcases Nat.lt_or_ge n 10 with hn | hn
    · rw [Nat.toDigits_of_lt_base hn] at h
      exact (by decide : ∀ d < 10, [Nat.digitChar d].head? = some '0' → d = 0) n hn h
    · -- The first digit of a longer number is that of the number without its last digit.
      rw [Nat.toDigits_of_base_le (by omega) hn, List.head?_append_of_ne_nil _ Nat.toDigits_ne_nil] at h
      have := ih (n / 10) (by omega) h
      omega

/-- Only zero is written with a zero in front. -/
theorem length_toDigits_of_head?_eq_zero {n : Nat} (h : (Nat.toDigits 10 n).head? = some '0') :
    (Nat.toDigits 10 n).length = 1 := by
  rw [head?_toDigits_eq_zero h]
  rfl

theorem exists_cons_toDigits (n : Nat) :
    ∃ d ds, Nat.toDigits 10 n = d :: ds ∧ d.isDigit = true := by
  cases h : Nat.toDigits 10 n with
  | nil => exact absurd h Nat.toDigits_ne_nil
  | cons d ds => exact ⟨d, ds, rfl, isDigit_of_mem_toDigits (h ▸ List.mem_cons_self)⟩

theorem toList_ofInt_ofNat (n : Nat) : (ofInt (.ofNat n)).toList = Nat.toDigits 10 n :=
  String.toList_ofList

theorem toList_ofInt_negSucc (n : Nat) :
    (ofInt (.negSucc n)).toList = '-' :: Nat.toDigits 10 (n + 1) := by
  show ("-" ++ String.ofList (Nat.toDigits 10 (n + 1))).toList = _
  rw [String.toList_append, String.toList_ofList, String.toList_ofList, List.singleton_append]

end Numeral

namespace Json

/-! ### Strings -/

theorem hexDigit?_hexDigit : ∀ n < 16, hexDigit? (hexDigit n) = some n := by decide

theorem hexUnit?_of_lt {n : Nat} (h : n < 256) :
    hexUnit? '0' '0' (hexDigit (n / 16)) (hexDigit (n % 16)) = some n := by
  have h0 : hexDigit? '0' = some 0 := rfl
  have hhigh := hexDigit?_hexDigit (n / 16) (by omega)
  have hlow := hexDigit?_hexDigit (n % 16) (by omega)
  simp only [hexUnit?, h0, hhigh, hlow, Option.bind_eq_bind, Option.bind_some, Option.pure_def,
    Option.some.injEq]
  omega

/-- An escaped character is one piece, which stands for the character. -/
theorem exists_pieces_escape (c : Char) :
    ∃ p, (∀ cs ps rest, pieces cs = some (ps, rest) →
        pieces (escape c ++ cs) = some (p :: ps, rest)) ∧
      ∀ ps, joinPieces (p :: ps) = (joinPieces ps).map (c :: ·) := by
  unfold escape
  split
  case h_8 hquote hback hb hf hn hr ht =>
    split
    next hlt =>
      refine ⟨.unit c.toNat, fun cs ps rest h => ?_, fun ps => ?_⟩
      · have hunit := hexUnit?_of_lt (n := c.toNat) (by omega)
        simp [pieces, hunit, h]
      · have hhigh : isHighSurrogate c.toNat = false := by
          simp [isHighSurrogate]
          omega
        have hlow : isLowSurrogate c.toNat = false := by
          simp [isLowSurrogate]
          omega
        rw [joinPieces.eq_def]
        simp [hhigh, hlow]
    next hge =>
      refine ⟨.char c, fun cs ps rest h => ?_, fun ps => rfl⟩
      rw [List.singleton_append, pieces.eq_def]
      split <;> simp_all
  all_goals
    exact ⟨.char _, fun cs ps rest h => by simp [pieces, escaped?, h], fun ps => rfl⟩

theorem exists_pieces_flatMap_escape (s rest : List Char) :
    ∃ ps, pieces (s.flatMap escape ++ '"' :: rest) = some (ps, rest) ∧
      joinPieces ps = some s := by
  induction s with
  | nil => exact ⟨[], rfl, rfl⟩
  | cons c s ih =>
    obtain ⟨ps, hps, hs⟩ := ih
    obtain ⟨p, hp, hc⟩ := exists_pieces_escape c
    refine ⟨p :: ps, ?_, ?_⟩
    · rw [List.flatMap_cons, List.append_assoc]
      exact hp _ _ _ hps
    · rw [hc, hs]
      rfl

/-- A text in quotes is read back. -/
theorem exists_quote_eq (s : String) : ∃ cs, quote s = '"' :: cs ∧
    ∀ rest, scanString (cs ++ rest) = some (some s, rest) := by
  refine ⟨s.toList.flatMap escape ++ ['"'], rfl, fun rest => ?_⟩
  obtain ⟨ps, hps, hs⟩ := exists_pieces_flatMap_escape s.toList rest
  rw [List.append_assoc, List.singleton_append, scanString, hps]
  simp [hs]

/-! ### Numbers -/

/-- What may stand behind a written value: nothing, a comma, or the end of a list or a record. -/
def Follows : List Char → Prop
  | [] => True
  | c :: _ => c = ',' ∨ c = ']' ∨ c = '\x7d'

variable {rest : List Char}

theorem scanDigits_toDigits (n : Nat) (h : Follows rest) :
    scanDigits (Nat.toDigits 10 n ++ rest) = some (Nat.toDigits 10 n, rest) := by
  have hdigits : ∀ c ∈ Nat.toDigits 10 n, c.isDigit = true :=
    fun c => Numeral.isDigit_of_mem_toDigits
  have hnone : rest.takeWhile Char.isDigit = [] ∧ rest.dropWhile Char.isDigit = rest := by
    cases rest with
    | nil => exact ⟨rfl, rfl⟩
    | cons c cs =>
      have hc : c.isDigit = false := by
        rcases h with rfl | rfl | rfl <;> rfl
      exact ⟨List.takeWhile_cons_of_neg (by simp [hc]), List.dropWhile_cons_of_neg (by simp [hc])⟩
  unfold scanDigits
  dsimp only
  rw [List.takeWhile_append_of_pos hdigits, List.dropWhile_append_of_pos hdigits, hnone.1, hnone.2,
    List.append_nil, if_neg]
  simp [Nat.toDigits_ne_nil]

theorem scanUnsigned_toDigits (n : Nat) (h : Follows rest) :
    scanUnsigned (Nat.toDigits 10 n ++ rest) = some (some n, rest) := by
  have hzero : ¬((Nat.toDigits 10 n).head? = some '0' ∧ (Nat.toDigits 10 n).length ≠ 1) :=
    fun hz => hz.2 (Numeral.length_toDigits_of_head?_eq_zero hz.1)
  have hfraction : scanFraction rest = some (false, rest) := by
    cases rest with
    | nil => rfl
    | cons c cs => rcases h with rfl | rfl | rfl <;> rfl
  have hexponent : scanExponent rest = some (false, rest) := by
    cases rest with
    | nil => rfl
    | cons c cs => rcases h with rfl | rfl | rfl <;> rfl
  have hvalue : digitsValue (Nat.toDigits 10 n) = n := Nat.ofDigitChars_ten_toDigits
  simp [scanUnsigned, scanDigits_toDigits n h, hzero, hfraction, hexponent, hvalue]

theorem scanNumber_ofInt (n : Int) (h : Follows rest) :
    scanNumber ((Numeral.ofInt n).toList ++ rest) = some (some n, rest) := by
  cases n with
  | ofNat n =>
    obtain ⟨d, ds, hds, hd⟩ := Numeral.exists_cons_toDigits n
    have hread := scanUnsigned_toDigits n h
    rw [Numeral.toList_ofInt_ofNat]
    rw [hds, List.cons_append] at hread ⊢
    unfold scanNumber
    split
    next hminus =>
      cases hminus
      cases hd
    next =>
      rw [hread]
      rfl
  | negSucc n =>
    rw [Numeral.toList_ofInt_negSucc, List.cons_append, scanNumber, scanUnsigned_toDigits (n + 1) h]
    rfl

end Json

end TileRealm
