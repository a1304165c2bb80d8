import Mathlib.Tactic.SplitIfs
import TileRealm.Text.Utf8

/-!
# The order of texts

UTF-8 keeps the order of characters, so texts are in the order of their bytes
(`Text.compare_eq_lt_iff`).
-/

namespace TileRealm

namespace Text

/-- Of two numbers the smaller one has the smaller quotient, or else the smaller remainder. -/
theorem div_lt_or_mod_lt {m n : Nat} (h : m < n) (k : Nat) :
    m / k < n / k ∨ m / k = n / k ∧ m % k < n % k := by
  rcases Nat.lt_or_eq_of_le (Nat.div_le_div_right (c := k) (Nat.le_of_lt h)) with hlt | heq
  · exact .inl hlt
  · refine .inr ⟨heq, ?_⟩
    rw [← Nat.div_add_mod m k, ← Nat.div_add_mod n k, heq] at h
    exact Nat.lt_of_add_lt_add_left h

/-- The bytes of a smaller character are smaller, whatever comes after them. -/
theorem utf8EncodeChar_append_lt {c d : Char} (h : c < d) (as bs : Bytes) :
    String.utf8EncodeChar c ++ as < String.utf8EncodeChar d ++ bs := by
  have hlt : c.val.toNat < d.val.toNat := UInt32.lt_iff_toNat_lt.1 h
  have hd : d.val.toNat < 0x110000 := by
    have hvalid := d.valid
    simp only [UInt32.isValidChar, Nat.isValidChar] at hvalid
    omega
  unfold String.utf8EncodeChar
  generalize c.val.toNat = m at hlt ⊢
  generalize d.val.toNat = n at hlt hd ⊢
  -- The last byte decides only where the ones before it are equal, and so on to the front.
  have hlast := div_lt_or_mod_lt hlt 64
  have hthird (h : m / 64 < n / 64) := div_lt_or_mod_lt h 64
  have hsecond (h : m / 4096 < n / 4096) := div_lt_or_mod_lt h 64
  simp only [Nat.div_div_eq_div_mul] at hthird hsecond
  dsimp only
  split_ifs <;>
    simp (disch := omega) only [List.cons_append, List.nil_append, List.cons_lt_cons_iff,
      UInt8.lt_iff_toNat_lt, ← UInt8.toNat_inj, UInt8.toNat_ofNat', Nat.mod_eq_of_lt] <;>
    omega

theorem utf8_eq_flatMap (s : String) : utf8 s = s.toList.flatMap String.utf8EncodeChar := by
  unfold utf8
  rw [← String.utf8Encode_toList]
  induction s.toList with
  | nil => rfl
  | cons c cs ih =>
    rw [List.utf8Encode_cons, List.utf8Encode_singleton, ByteArray.data_append, Array.toList_append, ih,
      List.flatMap_cons, List.data_toByteArray]

theorem flatMap_utf8EncodeChar_lt {cs ds : List Char} (h : cs < ds) :
    cs.flatMap String.utf8EncodeChar < ds.flatMap String.utf8EncodeChar := by
  induction cs generalizing ds with
  | nil =>
    cases ds with
    | nil => cases h
    | cons d ds =>
      rw [List.flatMap_nil, List.flatMap_cons]
      obtain ⟨b, bs, hb⟩ := List.exists_cons_of_ne_nil (String.utf8EncodeChar_ne_nil (c := d))
      rw [hb]
      exact List.nil_lt_cons _ _
  | cons c cs ih =>
    cases ds with
    | nil => cases h
    | cons d ds =>
      rw [List.flatMap_cons, List.flatMap_cons]
      rcases List.cons_lt_cons_iff.1 h with hlt | ⟨rfl, hlt⟩
      · exact utf8EncodeChar_append_lt hlt _ _
      · exact List.append_left_lt (ih hlt)

theorem utf8_lt_utf8 {s t : String} (h : s < t) : utf8 s < utf8 t := by
  rw [utf8_eq_flatMap, utf8_eq_flatMap]
  exact flatMap_utf8EncodeChar_lt (String.lt_iff.1 h)

theorem utf8_lt_utf8_iff {s t : String} : utf8 s < utf8 t ↔ s < t := by
  refine ⟨fun h => Decidable.byContradiction fun hnot => ?_, utf8_lt_utf8⟩
  by_cases hlt : t < s
  · exact List.lt_asymm h (utf8_lt_utf8 hlt)
  · have heq : s = t := String.le_antisymm hlt hnot
    rw [heq] at h
    exact List.lt_irrefl _ h

/-- Texts are in the order of their bytes. -/
theorem compare_eq_lt_iff {s t : String} : compare s t = .lt ↔ utf8 s < utf8 t :=
  compareOfLessAndEq_eq_lt.trans utf8_lt_utf8_iff.symm

end Text

end TileRealm
