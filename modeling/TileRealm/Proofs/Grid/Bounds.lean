import TileRealm.Grid.Bounds

/-!
# The tiles of bounds

Membership in bounds as inequalities between whole numbers (`Bounds.contains_iff`), in the tiles that
two bounds share (`Bounds.contains_inter_iff`), in the tiles of a map
(`Bounds.contains_anchored_iff`), and bounds that hold a tile at all (`Bounds.exists_contains_iff`).
-/

namespace TileRealm

namespace Coord

variable {c : Coord} {n : Int}

/-- No coordinate is past a sum that stopped at the end of the grid, so stopping is not noticed except
at the other end. -/
theorem le_saturate_iff : c.toInt ≤ (saturate n).toInt ↔ c.toInt ≤ n ∨ c.toInt = least := by
  have := least_le_toInt c
  have := toInt_le_greatest c
  rw [toInt_saturate]
  omega

theorem saturate_le_iff : (saturate n).toInt ≤ c.toInt ↔ n ≤ c.toInt ∨ c.toInt = greatest := by
  have := least_le_toInt c
  have := toInt_le_greatest c
  rw [toInt_saturate]
  omega

end Coord

namespace Bounds

variable {a b : Bounds} {t : Tile}

theorem contains_iff :
    b.contains t = true ↔
      (b.minX.toInt ≤ t.x.toInt ∧ t.x.toInt ≤ b.maxX.toInt) ∧
        b.minY.toInt ≤ t.y.toInt ∧ t.y.toInt ≤ b.maxY.toInt := by
  simp only [contains, Bool.and_eq_true, decide_eq_true_eq, Int32.le_iff_toInt_le, and_assoc]

theorem toInt_larger (c d : Coord) : (larger c d).toInt = max c.toInt d.toInt := by
  unfold larger
  split
  next h => rw [Int.max_eq_right (Int32.le_iff_toInt_le.1 h)]
  next h =>
    rw [Int32.not_le, Int32.lt_iff_toInt_lt] at h
    omega

theorem toInt_smaller (c d : Coord) : (smaller c d).toInt = min c.toInt d.toInt := by
  unfold smaller
  split
  next h => rw [Int.min_eq_left (Int32.le_iff_toInt_le.1 h)]
  next h =>
    rw [Int32.not_le, Int32.lt_iff_toInt_lt] at h
    omega

theorem contains_inter_iff :
    (a.inter b).contains t = true ↔ a.contains t = true ∧ b.contains t = true := by
  simp only [contains_iff, inter, toInt_larger, toInt_smaller]
  omega

/-- A map has the tiles of its columns and rows.  At the least coordinate a map without columns has one
none the less, as no last column can lie in front of it, and so with the rows. -/
theorem contains_anchored_iff {origin : Tile} {width height : UInt32} :
    (anchored origin width height).contains t = true ↔
      (origin.x.toInt ≤ t.x.toInt ∧ (t.x.toInt < origin.x.toInt + width.toNat ∨
          width = 0 ∧ t.x.toInt = Coord.least)) ∧
        origin.y.toInt ≤ t.y.toInt ∧ (t.y.toInt < origin.y.toInt + height.toNat ∨
          height = 0 ∧ t.y.toInt = Coord.least) := by
  have hx := Coord.least_le_toInt origin.x
  have hy := Coord.least_le_toInt origin.y
  rw [← UInt32.toNat_inj (a := width), ← UInt32.toNat_inj (a := height)]
  simp only [contains_iff, anchored, Coord.le_saturate_iff, UInt32.toNat_zero]
  omega

/-- Bounds hold a tile when their ends are the right way round. -/
theorem exists_contains_iff :
    (∃ t, b.contains t = true) ↔
      b.minX.toInt ≤ b.maxX.toInt ∧ b.minY.toInt ≤ b.maxY.toInt := by
  constructor
  · rintro ⟨t, ht⟩
    rw [contains_iff] at ht
    omega
  · intro h
    refine ⟨⟨b.minX, b.minY⟩, contains_iff.2 ?_⟩
    dsimp only
    omega

theorem isEmpty_eq_false_iff : b.isEmpty = false ↔ ∃ t, b.contains t = true := by
  rw [exists_contains_iff]
  simp only [isEmpty, Bool.or_eq_false_iff, decide_eq_false_iff_not, Int32.not_lt,
    Int32.le_iff_toInt_le]

theorem isEmpty_eq_true_iff : b.isEmpty = true ↔ ¬ ∃ t, b.contains t = true := by
  rw [← isEmpty_eq_false_iff, Bool.not_eq_false]

end Bounds

end TileRealm
