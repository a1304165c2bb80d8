import Mathlib.Logic.Function.Iterate
import TileRealm.Proofs.Grid.Step

/-!
# The way to a tile

Single steps toward a tile, one after the other.  After `n` of them both coordinates are known
exactly (`toInt_x_approach`, `toInt_y_approach`): the columns are made up first, then the rows, and
nothing moves any more once the tile is reached.  From these follow the distance that is left, that
the way stays between its two ends, and that the ends of the grid never cut a step short
(`Tile.approaches`).
-/

namespace TileRealm

/-! ### One coordinate -/

/-- The number after `k` unit steps from `m` toward `n`, where it then stays. -/
def nearing (m n : Int) (k : Nat) : Int := if m ≤ n then min (m + k) n else max (m - k) n

theorem nearing_zero (m n : Int) : nearing m n 0 = m := by
  unfold nearing
  split <;> omega

theorem nearing_add_sign (m n : Int) (k : Nat) :
    nearing m n k + (n - nearing m n k).sign = nearing m n (k + 1) := by
  have hsign : ∀ d : Int, d.sign = if 0 < d then 1 else if d = 0 then 0 else -1 := fun d => by
    rcases Int.lt_trichotomy d 0 with h | h | h
    · rw [Int.sign_eq_neg_one_of_neg h]
      omega
    · rw [h]
      rfl
    · rw [Int.sign_eq_one_of_pos h, if_pos h]
  rw [hsign]
  unfold nearing
  split <;> omega

/-- What is left of the difference. -/
theorem natAbs_nearing_sub (m n : Int) (k : Nat) :
    (nearing m n k - n).natAbs = (m - n).natAbs - k := by
  unfold nearing
  split <;> omega

theorem nearing_eq_iff {m n : Int} {k : Nat} : nearing m n k = n ↔ (m - n).natAbs ≤ k := by
  have h := natAbs_nearing_sub m n k
  omega

theorem nearing_between (m n : Int) (k : Nat) : min m n ≤ nearing m n k ∧ nearing m n k ≤ max m n := by
  unfold nearing
  split <;> omega

namespace Tile

/-! ### The way -/

/-- The tile after `n` single steps from `a` toward `b`. -/
def approach (a b : Tile) (n : Nat) : Tile := (fun t => t.stepToward b)^[n] a

theorem approach_succ (a b : Tile) (n : Nat) :
    a.approach b (n + 1) = (a.approach b n).stepToward b :=
  Function.iterate_succ_apply' ..

/-- How many columns lie between two tiles. -/
def columnsTo (a b : Tile) : Nat := (a.x.toInt - b.x.toInt).natAbs

theorem toInt_x_approach (a b : Tile) (n : Nat) :
    (a.approach b n).x.toInt = nearing a.x.toInt b.x.toInt n := by
  induction n with
  | zero => exact (nearing_zero ..).symm
  | succ n ih => rw [approach_succ, toInt_x_stepToward, ih, nearing_add_sign]

/-- The rows wait until the columns are made up. -/
theorem toInt_y_approach (a b : Tile) (n : Nat) :
    (a.approach b n).y.toInt = nearing a.y.toInt b.y.toInt (n - a.columnsTo b) := by
  induction n with
  | zero =>
    rw [Nat.zero_sub]
    exact (nearing_zero ..).symm
  | succ n ih =>
    rw [approach_succ, toInt_y_stepToward, toInt_x_approach, ih]
    unfold columnsTo
    split
    next hx =>
      rw [nearing_eq_iff] at hx
      rw [nearing_add_sign, Nat.sub_add_comm hx]
    next hx =>
      rw [nearing_eq_iff] at hx
      congr 1
      omega

/-- Each step takes one off the distance until there is none. -/
theorem distance_approach (a b : Tile) (n : Nat) :
    (a.approach b n).distance b = a.distance b - n := by
  have hx := natAbs_nearing_sub a.x.toInt b.x.toInt n
  have hy := natAbs_nearing_sub a.y.toInt b.y.toInt (n - a.columnsTo b)
  unfold distance
  rw [toInt_x_approach, toInt_y_approach, hx, hy]
  unfold columnsTo
  omega

theorem eq_of_distance_eq_zero {a b : Tile} (h : a.distance b = 0) : a = b := by
  unfold distance at h
  exact ext_toInt (by omega) (by omega)

theorem approach_of_le {a b : Tile} {n : Nat} (h : a.distance b ≤ n) : a.approach b n = b :=
  eq_of_distance_eq_zero (by rw [distance_approach, Nat.sub_eq_zero_of_le h])

theorem distance_approach_succ {a b : Tile} {n : Nat} (h : n < a.distance b) :
    (a.approach b n).distance (a.approach b (n + 1)) = 1 := by
  rw [approach_succ]
  refine distance_stepToward fun heq => ?_
  have hleft := distance_approach a b n
  rw [heq, distance_self] at hleft
  omega

/-! ### Columns first -/

theorem y_approach_of_le {a b : Tile} {n : Nat} (h : n ≤ a.columnsTo b) :
    (a.approach b n).y = a.y := by
  rw [← Int32.toInt_inj, toInt_y_approach, Nat.sub_eq_zero_of_le h, nearing_zero]

theorem x_approach_of_le {a b : Tile} {n : Nat} (h : a.columnsTo b ≤ n) :
    (a.approach b n).x = b.x := by
  rw [← Int32.toInt_inj, toInt_x_approach]
  exact nearing_eq_iff.2 h

/-! ### The ends of the grid -/

/-- The columns and rows of the single step from `a` toward `b`, before it is looked at whether they
lead off the grid. -/
def stride (a b : Tile) : Int × Int :=
  let dx := b.x.toInt - a.x.toInt
  let dy := b.y.toInt - a.y.toInt
  if dx ≠ 0 ∧ dy ≠ 0 then (dx.sign, 0) else (dx.sign, dy.sign)

/-- No end of the grid stops a move along both axes. -/
structure Free (t : Tile) (dx dy : Int) : Prop where
  x_mem : Coord.least ≤ t.x.toInt + dx ∧ t.x.toInt + dx ≤ Coord.greatest
  y_mem : Coord.least ≤ t.y.toInt + dy ∧ t.y.toInt + dy ≤ Coord.greatest

theorem Free.toInt_offset {t : Tile} {dx dy : Int} (h : t.Free dx dy) :
    (t.offset dx dy).x.toInt = t.x.toInt + dx ∧ (t.offset dx dy).y.toInt = t.y.toInt + dy := by
  have hx := h.x_mem
  have hy := h.y_mem
  refine ⟨(Coord.toInt_saturate _).trans ?_, (Coord.toInt_saturate _).trans ?_⟩ <;> omega

theorem stride_fst (a b : Tile) : (a.stride b).1 = (b.x.toInt - a.x.toInt).sign := by
  unfold stride
  dsimp only
  split <;> rfl

theorem stride_snd (a b : Tile) :
    (a.stride b).2 = if a.x.toInt = b.x.toInt then (b.y.toInt - a.y.toInt).sign else 0 := by
  unfold stride
  dsimp only
  split
  next h => rw [if_neg (by omega)]
  next h =>
    split
    next => rfl
    next hx =>
      -- the rows differ in no case but the one before
      have hy : b.y.toInt - a.y.toInt = 0 := by omega
      rw [hy]
      rfl

theorem free_stride (a b : Tile) : a.Free (a.stride b).1 (a.stride b).2 := by
  have := Coord.least_le_toInt a.x
  have := Coord.toInt_le_greatest a.x
  have := Coord.least_le_toInt b.x
  have := Coord.toInt_le_greatest b.x
  have := Coord.least_le_toInt a.y
  have := Coord.toInt_le_greatest a.y
  have := Coord.least_le_toInt b.y
  have := Coord.toInt_le_greatest b.y
  have hx := add_sign_between a.x.toInt b.x.toInt
  have hy := add_sign_between a.y.toInt b.y.toInt
  rw [stride_fst, stride_snd]
  constructor
  · omega
  · split <;> omega

theorem stepToward_eq_offset_stride (a b : Tile) :
    a.stepToward b = a.offset (a.stride b).1 (a.stride b).2 := by
  obtain ⟨hx, hy⟩ := (free_stride a b).toInt_offset
  refine ext_toInt ?_ ?_
  · rw [toInt_x_stepToward, hx, stride_fst]
  · rw [toInt_y_stepToward, hy, stride_snd]
    split <;> omega

end Tile

/-! ### The rectangle between two tiles -/

namespace Bounds

/-- The bounds that two tiles span. -/
def spanned (a b : Tile) : Bounds :=
  ⟨smaller a.x b.x, larger a.x b.x, smaller a.y b.y, larger a.y b.y⟩

theorem contains_spanned_iff {a b t : Tile} :
    (spanned a b).contains t = true ↔
      (min a.x.toInt b.x.toInt ≤ t.x.toInt ∧ t.x.toInt ≤ max a.x.toInt b.x.toInt) ∧
        min a.y.toInt b.y.toInt ≤ t.y.toInt ∧ t.y.toInt ≤ max a.y.toInt b.y.toInt := by
  simp only [contains_iff, spanned, toInt_larger, toInt_smaller]

theorem contains_of_spanned {bounds : Bounds} {a b t : Tile} (ha : bounds.contains a = true)
    (hb : bounds.contains b = true) (ht : (spanned a b).contains t = true) :
    bounds.contains t = true := by
  rw [contains_spanned_iff] at ht
  rw [contains_iff] at *
  omega

theorem contains_spanned_approach (a b : Tile) (n : Nat) :
    (spanned a b).contains (a.approach b n) = true := by
  rw [contains_spanned_iff, Tile.toInt_x_approach, Tile.toInt_y_approach]
  exact ⟨nearing_between .., nearing_between ..⟩

end Bounds

namespace Tile

/-- The way from one tile to another, step by step: each step takes one off the distance until the
tile is reached and kept, all of it lies in the rectangle of the two tiles and so in all bounds that
hold both, the columns come before the rows, and no step meets an end of the grid. -/
theorem approaches (a b : Tile) :
    (∀ n, (a.approach b n).distance b = a.distance b - n) ∧
      (∀ n, n < a.distance b → (a.approach b n).distance (a.approach b (n + 1)) = 1) ∧
      (∀ n, a.distance b ≤ n → a.approach b n = b) ∧
      (∀ n, (Bounds.spanned a b).contains (a.approach b n) = true) ∧
      (∀ bounds : Bounds, bounds.contains a = true → bounds.contains b = true →
        ∀ n, bounds.contains (a.approach b n) = true) ∧
      (∀ n, n ≤ a.columnsTo b → (a.approach b n).y = a.y) ∧
      (∀ n, a.columnsTo b ≤ n → (a.approach b n).x = b.x) ∧
      ∀ n, let t := a.approach b n
        a.approach b (n + 1) = t.offset (t.stride b).1 (t.stride b).2 ∧
          t.Free (t.stride b).1 (t.stride b).2 := by
  refine ⟨distance_approach a b, fun _ => distance_approach_succ, fun _ => approach_of_le,
    Bounds.contains_spanned_approach a b, ?_, fun _ => y_approach_of_le,
    fun _ => x_approach_of_le, fun n => ?_⟩
  · intro bounds ha hb n
    exact Bounds.contains_of_spanned ha hb (Bounds.contains_spanned_approach a b n)
  · exact ⟨(approach_succ a b n).trans (stepToward_eq_offset_stride _ b), free_stride _ b⟩

/-- From one corner of the grid to the opposite one. -/
theorem approaches_corner :
    let a : Tile := ⟨Int32.minValue, Int32.maxValue⟩
    let b : Tile := ⟨Int32.maxValue, Int32.minValue⟩
    a.distance b = 8589934590 ∧ (a.approach b 4294967296).distance b = 4294967294 ∧
      (a.approach b 4294967295).distance (a.approach b 4294967296) = 1 ∧
      a.approach b 8589934591 = b ∧
      (Bounds.unbounded.contains a = true ∧ Bounds.unbounded.contains b = true ∧
        Bounds.unbounded.contains (a.approach b 4294967295) = true) ∧
      (a.columnsTo b = 4294967295 ∧ (a.approach b 4294967295).y = Int32.maxValue ∧
        (a.approach b 4294967295).x = Int32.maxValue) := by
  intro a b
  obtain ⟨hdistance, hone, hend, -, hbounds, hrow, hcolumn, -⟩ := approaches a b
  have hd : a.distance b = 8589934590 := by decide
  have hc : a.columnsTo b = 4294967295 := by decide
  have ha : Bounds.unbounded.contains a = true := by decide
  have hb : Bounds.unbounded.contains b = true := by decide
  refine ⟨hd, ?_, hone _ ?_, hend _ ?_, ⟨ha, hb, hbounds _ ha hb _⟩, hc, hrow _ (Nat.le_of_eq hc.symm),
    hcolumn _ (Nat.le_of_eq hc)⟩
  · rw [hdistance, hd]
  · rw [hd]
    decide
  · rw [hd]
    decide

end Tile

end TileRealm
