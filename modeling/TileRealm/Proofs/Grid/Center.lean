import Mathlib.Algebra.Order.Field.Rat
import TileRealm.Proofs.Grid.Bounds

/-!
# The middle of bounds

Half the sum of two coordinates is in the range of a coordinate, so that the ends of the grid never move
the tile in the middle (`Bounds.toInt_x_center`, `Bounds.toInt_y_center`).  On each axis it is at the
exact middle or half a tile below, as no other tile is (`Bounds.isMiddle_iff`), and it lies inside
whenever any tile does (`Bounds.contains_center_iff`).
-/

namespace TileRealm

namespace Coord

variable {lo hi : Coord} {n : Int}

theorem toInt_saturate_half (lo hi : Coord) :
    (saturate ((lo.toInt + hi.toInt) / 2)).toInt = (lo.toInt + hi.toInt) / 2 := by
  have := least_le_toInt lo
  have := least_le_toInt hi
  have := toInt_le_greatest lo
  have := toInt_le_greatest hi
  rw [toInt_saturate]
  omega

/-- The exact middle of a range, which may lie half way between two coordinates. -/
def middle (lo hi : Coord) : ℚ := (lo.toInt + hi.toInt) / 2

/-- Whether a whole number is the middle of a range, rounded down by half a step at most. -/
def Halves (lo hi : Coord) (n : Int) : Prop := n ≤ middle lo hi ∧ middle lo hi - n ≤ 1 / 2

theorem halves_iff : Halves lo hi n ↔ n = (lo.toInt + hi.toInt) / 2 := by
  -- Twice the middle is a whole number, so that both bounds on `n` can be stated without fractions.
  have hlow : (n : ℚ) ≤ middle lo hi ↔ 2 * n ≤ lo.toInt + hi.toInt := by
    rw [middle, le_div_iff₀ two_pos, mul_comm]
    exact_mod_cast Iff.rfl
  have hhigh : middle lo hi - n ≤ 1 / 2 ↔ lo.toInt + hi.toInt ≤ 2 * n + 1 := by
    rw [sub_le_iff_le_add', middle, div_le_iff₀ two_pos, add_mul, one_div_mul_cancel two_ne_zero,
      mul_comm]
    exact_mod_cast Iff.rfl
  rw [Halves, hlow, hhigh]
  omega

end Coord

namespace Bounds

variable {b : Bounds} {t : Tile}

theorem toInt_x_center (b : Bounds) : b.center.x.toInt = (b.minX.toInt + b.maxX.toInt) / 2 :=
  Coord.toInt_saturate_half b.minX b.maxX

theorem toInt_y_center (b : Bounds) : b.center.y.toInt = (b.minY.toInt + b.maxY.toInt) / 2 :=
  Coord.toInt_saturate_half b.minY b.maxY

/-- Whether a tile is on both axes the exact middle of bounds, rounded down by half a tile at most. -/
def IsMiddle (b : Bounds) (t : Tile) : Prop :=
  Coord.Halves b.minX b.maxX t.x.toInt ∧ Coord.Halves b.minY b.maxY t.y.toInt

theorem isMiddle_iff : b.IsMiddle t ↔ t = b.center := by
  obtain ⟨x, y⟩ := t
  rw [IsMiddle, Coord.halves_iff, Coord.halves_iff, ← toInt_x_center, ← toInt_y_center,
    Int32.toInt_inj, Int32.toInt_inj, ← Tile.mk.injEq]

theorem contains_center_iff : b.contains b.center = true ↔ b.isEmpty = false := by
  rw [isEmpty_eq_false_iff, exists_contains_iff, contains_iff, toInt_x_center, toInt_y_center]
  omega

/-- Whichever way round their ends are, bounds stand for the tiles inside: two of them meet in the tiles
that lie in both, and they are empty when they have no tile.  Exactly those that are not empty hold the
tile in their middle.  That tile is the exact middle, rounded down by half a tile at most, for bounds as
large as the grid, too. -/
theorem tiles_and_center (a b : Bounds) :
    (∀ t, (a.inter b).contains t = true ↔ a.contains t = true ∧ b.contains t = true) ∧
    (b.isEmpty = true ↔ ¬ ∃ t, b.contains t = true) ∧
    (b.contains b.center = true ↔ b.isEmpty = false) ∧
    ∀ t, b.IsMiddle t ↔ t = b.center :=
  ⟨fun _ => contains_inter_iff, isEmpty_eq_true_iff, contains_center_iff, fun _ => isMiddle_iff⟩

/-- The middle of the whole grid lies between four tiles. -/
example : unbounded.center = ⟨-1, -1⟩ := by decide

end Bounds

end TileRealm
