import TileRealm.Proofs.Grid.Bounds

/-!
# Distances and single steps

The distance between tiles, and where the single step toward a tile leads: along the row while the
columns differ (`toInt_x_stepToward`), then along the column (`toInt_y_stepToward`).  The ends of
the grid never stop it, so a step that is one has length one (`distance_stepToward`).  A step between
tiles of bounds does not leave the bounds (`Bounds.contains_stepToward`).
-/

namespace TileRealm

namespace Tile

theorem ext_toInt {a b : Tile} (hx : a.x.toInt = b.x.toInt) (hy : a.y.toInt = b.y.toInt) :
    a = b := by
  cases a
  cases b
  rw [Int32.toInt_inj] at hx hy
  simp_all

/-! ### Distances -/

@[simp] theorem distance_self (a : Tile) : a.distance a = 0 := by
  simp [distance]

theorem distance_comm (a b : Tile) : a.distance b = b.distance a := by
  unfold distance
  omega

/-! ### Steps -/

theorem toInt_saturate_add_sign (c d : Coord) :
    (Coord.saturate (c.toInt + (d.toInt - c.toInt).sign)).toInt =
      c.toInt + (d.toInt - c.toInt).sign := by
  have hc := Coord.least_le_toInt c
  have hc' := Coord.toInt_le_greatest c
  have hd := Coord.least_le_toInt d
  have hd' := Coord.toInt_le_greatest d
  rw [Coord.toInt_saturate]
  rcases Int.lt_trichotomy (d.toInt - c.toInt) 0 with h | h | h
  · rw [Int.sign_eq_neg_one_of_neg h]
    omega
  · rw [h, Int.sign_zero]
    omega
  · rw [Int.sign_eq_one_of_pos h]
    omega

theorem toInt_saturate_add_zero (c : Coord) : (Coord.saturate (c.toInt + 0)).toInt = c.toInt := by
  have hc := Coord.least_le_toInt c
  have hc' := Coord.toInt_le_greatest c
  rw [Coord.toInt_saturate]
  omega

/-- The sign of a difference of length one is the difference. -/
theorem sign_eq_self {d : Int} (h : d.natAbs ≤ 1) : d.sign = d := by
  rcases Int.lt_trichotomy d 0 with hd | hd | hd
  · rw [Int.sign_eq_neg_one_of_neg hd]
    omega
  · rw [hd, Int.sign_zero]
  · rw [Int.sign_eq_one_of_pos hd]
    omega

theorem toInt_x_stepToward (a b : Tile) :
    (a.stepToward b).x.toInt = a.x.toInt + (b.x.toInt - a.x.toInt).sign := by
  unfold stepToward
  dsimp only
  split
  next h =>
    unfold distance at h
    rw [sign_eq_self (by omega)]
    omega
  next =>
    split
    next => exact toInt_saturate_add_sign a.x b.x
    next h =>
      have h0 : b.x.toInt - a.x.toInt = 0 := by omega
      rw [h0, Int.sign_zero, Int.add_zero]
      exact toInt_saturate_add_zero a.x

theorem toInt_y_stepToward (a b : Tile) :
    (a.stepToward b).y.toInt =
      if a.x.toInt = b.x.toInt then a.y.toInt + (b.y.toInt - a.y.toInt).sign else a.y.toInt := by
  unfold stepToward
  dsimp only
  split
  next h =>
    unfold distance at h
    split
    next hx =>
      rw [sign_eq_self (by omega)]
      omega
    next hx => omega
  next =>
    split
    next h => rw [if_neg (by omega)]; exact toInt_saturate_add_zero a.y
    next h => rw [if_pos (by omega)]; exact toInt_saturate_add_sign a.y b.y

@[simp] theorem stepToward_self (a : Tile) : a.stepToward a = a := by
  refine ext_toInt ?_ ?_
  · rw [toInt_x_stepToward, Int.sub_self, Int.sign_zero, Int.add_zero]
  · rw [toInt_y_stepToward, if_pos rfl, Int.sub_self, Int.sign_zero, Int.add_zero]

theorem natAbs_sign_of_ne {m n : Int} (h : m ≠ n) : (n - m).sign.natAbs = 1 :=
  Int.natAbs_sign_of_ne_zero (by omega)

/-- A step toward another tile leads exactly one tile away. -/
theorem distance_stepToward {a b : Tile} (h : a ≠ b) : a.distance (a.stepToward b) = 1 := by
  unfold distance
  rw [toInt_x_stepToward, toInt_y_stepToward]
  by_cases hx : a.x.toInt = b.x.toInt
  · have hy : a.y.toInt ≠ b.y.toInt := fun hy => h (ext_toInt hx hy)
    have hs := natAbs_sign_of_ne hy
    rw [if_pos hx, hx, Int.sub_self, Int.sign_zero]
    omega
  · have hs := natAbs_sign_of_ne hx
    rw [if_neg hx]
    omega

theorem stepToward_eq_self_iff {a b : Tile} : a.stepToward b = a ↔ a = b := by
  constructor
  · intro h
    by_cases hab : a = b
    · exact hab
    · have hd := distance_stepToward hab
      rw [h, distance_self] at hd
      cases hd
  · rintro rfl
    exact stepToward_self a

theorem add_sign_between (m n : Int) : min m n ≤ m + (n - m).sign ∧ m + (n - m).sign ≤ max m n := by
  rcases Int.lt_trichotomy (n - m) 0 with h | h | h
  · rw [Int.sign_eq_neg_one_of_neg h]
    omega
  · rw [h, Int.sign_zero]
    omega
  · rw [Int.sign_eq_one_of_pos h]
    omega

end Tile

theorem Bounds.contains_stepToward {b : Bounds} {t u : Tile} (ht : b.contains t = true)
    (hu : b.contains u = true) : b.contains (t.stepToward u) = true := by
  rw [contains_iff] at *
  rw [Tile.toInt_x_stepToward, Tile.toInt_y_stepToward]
  have hx := Tile.add_sign_between t.x.toInt u.x.toInt
  have hy := Tile.add_sign_between t.y.toInt u.y.toInt
  split <;> omega

end TileRealm
