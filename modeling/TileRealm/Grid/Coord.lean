/-!
# Coordinates

A coordinate is a 32-bit signed number.  Sums that leave the range stop at its ends.
-/

namespace TileRealm

/-- One coordinate of a tile. -/
abbrev Coord := Int32

namespace Coord

/-- The smallest coordinate. -/
def least : Int := -2147483648

/-- The largest coordinate. -/
def greatest : Int := 2147483647

/-- The coordinate nearest to a whole number. -/
def saturate (n : Int) : Coord := Int32.ofInt (max least (min n greatest))

/-- A whole number as a coordinate, if it is one. -/
def ofInt? (n : Int) : Option Coord :=
  if least ≤ n ∧ n ≤ greatest then some (Int32.ofInt n) else none

theorem least_le_toInt (c : Coord) : least ≤ c.toInt := by
  have := Int32.le_toInt c
  simpa [least] using this

theorem toInt_le_greatest (c : Coord) : c.toInt ≤ greatest := by
  have := Int32.toInt_lt c
  simp only [greatest]
  omega

theorem toInt_ofInt {n : Int} (hl : least ≤ n) (hg : n ≤ greatest) : (Int32.ofInt n).toInt = n := by
  simp only [least, greatest] at hl hg
  exact Int32.toInt_ofInt_of_le (by omega) (by omega)

theorem toInt_saturate (n : Int) : (saturate n).toInt = max least (min n greatest) := by
  refine toInt_ofInt (by omega) ?_
  simp only [least, greatest]
  omega

theorem ofInt?_eq_some_iff {n : Int} {c : Coord} : ofInt? n = some c ↔ c.toInt = n := by
  unfold ofInt?
  constructor
  · intro h
    split at h
    next hn => injection h with h; rw [← h, toInt_ofInt hn.1 hn.2]
    next => cases h
  · rintro rfl
    rw [if_pos ⟨least_le_toInt c, toInt_le_greatest c⟩, Int32.ofInt_toInt]

end Coord

end TileRealm
