import TileRealm.Proofs.Grid.Bounds
import TileRealm.Shard

/-!
# Playable tiles

The playable tiles of a shard should be those of its bounds that lie on its map (`Shard.OnMap`).  A
map without columns or rows has no such tile, and the shard is playable none the less if its bounds
begin at the least coordinate there is (`Shard.exists_isInside_iff`): the last column of the map
cannot lie in front of that one.  On all other shards the playable tiles are what they should be
(`Shard.isInside_iff_onMap_iff`).
-/

namespace TileRealm

namespace Shard

variable {shard : Shard}

/-- Whether a tile lies in one of the map's columns and in one of its rows. -/
def OnMap (shard : Shard) (t : Tile) : Prop :=
  (shard.configured.minX.toInt ≤ t.x.toInt ∧
      t.x.toInt < shard.configured.minX.toInt + shard.terrain.width.toNat) ∧
    shard.configured.minY.toInt ≤ t.y.toInt ∧
      t.y.toInt < shard.configured.minY.toInt + shard.terrain.height.toNat

/-- A map without columns or rows, each time at the least coordinate. -/
def IsPinned (shard : Shard) : Prop :=
  (shard.terrain.width = 0 ∨ shard.terrain.height = 0) ∧
    (shard.terrain.width = 0 → shard.configured.minX.toInt = Coord.least) ∧
    (shard.terrain.height = 0 → shard.configured.minY.toInt = Coord.least)

theorem exists_onMap_iff (h : ∃ t, shard.configured.contains t = true) :
    (∃ t, shard.configured.contains t = true ∧ shard.OnMap t) ↔
      0 < shard.terrain.width.toNat ∧ 0 < shard.terrain.height.toNat := by
  constructor
  · rintro ⟨t, -, ht⟩
    unfold OnMap at ht
    omega
  · intro hsize
    rw [Bounds.exists_contains_iff] at h
    refine ⟨⟨shard.configured.minX, shard.configured.minY⟩, Bounds.contains_iff.2 ?_, ?_⟩
    · dsimp only
      omega
    · unfold OnMap
      dsimp only
      omega

/-- There is a playable tile when a tile of the bounds lies on the map, and when the map is pinned to
the least coordinates. -/
theorem exists_isInside_iff (h : ∃ t, shard.configured.contains t = true) :
    (∃ t, shard.isInside t = true) ↔
      (∃ t, shard.configured.contains t = true ∧ shard.OnMap t) ∨ shard.IsPinned := by
  have hx := Coord.least_le_toInt shard.configured.minX
  have hy := Coord.least_le_toInt shard.configured.minY
  have hx' := Coord.toInt_le_greatest shard.configured.maxX
  have hy' := Coord.toInt_le_greatest shard.configured.maxY
  have hwidth : shard.terrain.width = 0 ↔ shard.terrain.width.toNat = 0 :=
    UInt32.toNat_inj.symm
  have hheight : shard.terrain.height = 0 ↔ shard.terrain.height.toNat = 0 :=
    UInt32.toNat_inj.symm
  rw [exists_onMap_iff h]
  rw [Bounds.exists_contains_iff] at h
  unfold isInside IsPinned
  rw [Bounds.exists_contains_iff, hwidth, hheight]
  simp only [effective, Bounds.inter, Bounds.anchored, Bounds.toInt_larger, Bounds.toInt_smaller,
    Coord.toInt_saturate]
  omega

/-- The playable tiles are those of the bounds that lie in a column and in a row of the map, where a
map without columns has one at the least coordinate, and a map without rows such a row. -/
theorem isInside_iff {t : Tile} :
    shard.isInside t = true ↔ shard.configured.contains t = true ∧
      (t.x.toInt < shard.configured.minX.toInt + shard.terrain.width.toNat ∨
        shard.terrain.width = 0 ∧ t.x.toInt = Coord.least) ∧
      (t.y.toInt < shard.configured.minY.toInt + shard.terrain.height.toNat ∨
        shard.terrain.height = 0 ∧ t.y.toInt = Coord.least) := by
  unfold isInside effective
  rw [Bounds.contains_inter_iff, Bounds.contains_anchored_iff]
  refine and_congr_right fun h => ?_
  obtain ⟨⟨hx, -⟩, hy, -⟩ := Bounds.contains_iff.1 h
  constructor
  · rintro ⟨⟨-, hx'⟩, -, hy'⟩
    exact ⟨hx', hy'⟩
  · rintro ⟨hx', hy'⟩
    exact ⟨⟨hx, hx'⟩, hy, hy'⟩

theorem not_onMap_of_isPinned (h : shard.IsPinned) (t : Tile) : ¬ shard.OnMap t := by
  unfold OnMap
  rcases h.1 with hwidth | hheight
  · rw [hwidth, UInt32.toNat_zero]
    omega
  · rw [hheight, UInt32.toNat_zero]
    omega

/-- On a shard that is not pinned the playable tiles are those of the bounds that lie on the map. -/
theorem isInside_iff_of_not_isPinned (h : ¬ shard.IsPinned) {t : Tile} :
    shard.isInside t = true ↔ shard.configured.contains t = true ∧ shard.OnMap t := by
  rw [isInside_iff]
  refine and_congr_right fun ht => ?_
  obtain ⟨⟨hx, -⟩, hy, -⟩ := Bounds.contains_iff.1 ht
  have hx' := Coord.least_le_toInt shard.configured.minX
  have hy' := Coord.least_le_toInt shard.configured.minY
  unfold OnMap
  unfold IsPinned at h
  rw [← UInt32.toNat_inj, ← UInt32.toNat_inj, UInt32.toNat_zero] at *
  omega

theorem isEmpty_effective_iff :
    shard.effective.isEmpty = true ↔ shard.configured.isEmpty = true ∨
      (shard.terrain.width = 0 ∨ shard.terrain.height = 0) ∧ ¬ shard.IsPinned := by
  rw [Bounds.isEmpty_eq_true_iff]
  cases hempty : shard.configured.isEmpty with
  | true =>
    refine iff_of_true ?_ (.inl rfl)
    rintro ⟨t, ht⟩
    exact Bounds.isEmpty_eq_true_iff.1 hempty ⟨t, (isInside_iff.1 ht).1⟩
  | false =>
    have hne := Bounds.isEmpty_eq_false_iff.1 hempty
    have hinside := exists_isInside_iff hne
    rw [exists_onMap_iff hne] at hinside
    change (¬ ∃ t, shard.isInside t = true) ↔ _
    rw [hinside, not_or, ← UInt32.toNat_inj, ← UInt32.toNat_inj, UInt32.toNat_zero]
    simp only [Bool.false_eq_true, false_or]
    exact and_congr_left' (by omega)

/-- The playable tiles are those of the bounds that lie on the map, for every size of the map, unless
the map has no columns, or no rows, and is pinned to the least coordinates while the bounds hold a tile.
Then a tile is playable that lies on no map, and the playable bounds are not empty, as they are for
every other map without columns or rows. -/
theorem isInside_iff_onMap_iff (shard : Shard) :
    (∀ t, shard.isInside t = true ↔ shard.configured.contains t = true ∧
      (t.x.toInt < shard.configured.minX.toInt + shard.terrain.width.toNat ∨
        shard.terrain.width = 0 ∧ t.x.toInt = Coord.least) ∧
      (t.y.toInt < shard.configured.minY.toInt + shard.terrain.height.toNat ∨
        shard.terrain.height = 0 ∧ t.y.toInt = Coord.least)) ∧
    ((∀ t, shard.isInside t = true ↔ shard.configured.contains t = true ∧ shard.OnMap t) ↔
      shard.configured.isEmpty = true ∨ ¬ shard.IsPinned) ∧
    (shard.effective.isEmpty = true ↔ shard.configured.isEmpty = true ∨
      (shard.terrain.width = 0 ∨ shard.terrain.height = 0) ∧ ¬ shard.IsPinned) := by
  refine ⟨fun t => isInside_iff, ?_, isEmpty_effective_iff⟩
  constructor
  · intro h
    cases hempty : shard.configured.isEmpty with
    | true => exact .inl rfl
    | false =>
      refine .inr fun hpinned => ?_
      have hne := Bounds.isEmpty_eq_false_iff.1 hempty
      obtain ⟨t, ht⟩ := (exists_isInside_iff hne).2 (.inr hpinned)
      exact not_onMap_of_isPinned hpinned t ((h t).1 ht).2
  · rintro (hempty | hfree) t
    · have hnot : ¬ shard.configured.contains t = true := fun ht =>
        Bounds.isEmpty_eq_true_iff.1 hempty ⟨t, ht⟩
      exact iff_of_false (fun ht => hnot (isInside_iff.1 ht).1) fun ht => hnot ht.1
    · exact isInside_iff_of_not_isPinned hfree

/-- A shard at the end of the grid whose map has rows, but no columns. -/
def brink : Shard where
  name := "a"
  configured := ⟨-2147483648, -2147483647, 0, 1⟩
  terrain := { width := 0, height := 4 }
  realm := ⟨[]⟩

/-- In the first column of the grid there is a playable tile, though the map has no columns. -/
theorem isInside_without_columns :
    brink.terrain.width = 0 ∧ brink.isInside ⟨-2147483648, 0⟩ = true ∧
      brink.configured.contains ⟨-2147483648, 0⟩ = true ∧ ¬ brink.OnMap ⟨-2147483648, 0⟩ ∧
      brink.effective.isEmpty = false := by
  have hpinned : brink.IsPinned := ⟨.inl rfl, fun _ => rfl, fun h => absurd h (by decide)⟩
  exact ⟨rfl, by decide, by decide, not_onMap_of_isPinned hpinned _, by decide⟩

end Shard

end TileRealm
