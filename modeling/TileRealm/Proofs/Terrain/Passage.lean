import TileRealm.Proofs.Grid.Step
import TileRealm.Terrain.Passage

/-!
# Room to pass

A body touches the tiles that are less than one tile away from it along both axes
(`HalfPlace.mem_touched_iff`).  In the middle of a tile that is this tile, half way to the next one it
is the two tiles (`HalfPlace.touches_midpoint_iff`), so a step is possible when there is room at both
of its ends (`Terrain.traversable_iff_of_distance_eq_one`).  Half way between any two tiles the body
stays on the grid (`HalfPlace.exists_tile_of_mem_touched`).
-/

namespace TileRealm

namespace HalfPlace

/-! ### What a body touches -/

theorem mem_touched_iff {c x : Int} : x ∈ touched c ↔ (c - 2 * x).natAbs < 2 := by
  unfold touched
  dsimp only
  split
  · rw [List.mem_singleton]
    omega
  · rw [List.mem_cons, List.mem_singleton]
    omega

/-- Whether a body at a place overlaps a tile. -/
def Touches (p : HalfPlace) (u : Tile) : Prop :=
  (p.x2 - 2 * u.x.toInt).natAbs < 2 ∧ (p.y2 - 2 * u.y.toInt).natAbs < 2

theorem midpoint_self (a : Tile) : midpoint a a = ofTile a := by
  simp only [midpoint, ofTile, Int.two_mul]

theorem touches_ofTile_iff {a u : Tile} : (ofTile a).Touches u ↔ u = a := by
  simp only [Touches, ofTile]
  constructor
  · intro h
    apply Tile.ext_toInt <;> omega
  · rintro rfl
    omega

theorem touches_midpoint_iff {a b u : Tile} (h : a.distance b = 1) :
    (midpoint a b).Touches u ↔ u = a ∨ u = b := by
  unfold Tile.distance at h
  simp only [Touches, midpoint]
  constructor
  · intro hu
    -- Along the axis on which the two differ the body lies between them, along the other one on both.
    by_cases ha : u.x.toInt = a.x.toInt ∧ u.y.toInt = a.y.toInt
    · exact .inl (Tile.ext_toInt ha.1 ha.2)
    · right
      apply Tile.ext_toInt <;> omega
  · rintro (rfl | rfl) <;> omega

/-- All that a body half way between two tiles touches is on the grid. -/
theorem exists_tile_of_mem_touched {a b : Tile} {x y : Int} (hx : x ∈ touched (midpoint a b).x2)
    (hy : y ∈ touched (midpoint a b).y2) :
    ∃ u : Tile, Coord.ofInt? x = some u.x ∧ Coord.ofInt? y = some u.y := by
  rw [mem_touched_iff] at hx hy
  have hax := Coord.least_le_toInt a.x
  have hax' := Coord.toInt_le_greatest a.x
  have hbx := Coord.least_le_toInt b.x
  have hbx' := Coord.toInt_le_greatest b.x
  have hay := Coord.least_le_toInt a.y
  have hay' := Coord.toInt_le_greatest a.y
  have hby := Coord.least_le_toInt b.y
  have hby' := Coord.toInt_le_greatest b.y
  dsimp only [midpoint] at hx hy
  refine ⟨⟨Int32.ofInt x, Int32.ofInt y⟩, ?_, ?_⟩
  · exact Coord.ofInt?_eq_some_iff.2 (Coord.toInt_ofInt (by omega) (by omega))
  · exact Coord.ofInt?_eq_some_iff.2 (Coord.toInt_ofInt (by omega) (by omega))

end HalfPlace

namespace Terrain

variable {t : Terrain} {a b : Tile}

/-! ### Room for a body -/

theorem walkableAt_of_ofInt? {x y : Int} {u : Tile} (hx : Coord.ofInt? x = some u.x)
    (hy : Coord.ofInt? y = some u.y) : t.walkableAt x y = t.walkable u := by
  rw [walkableAt, hx, hy]

theorem areaWalkable_midpoint_iff :
    t.areaWalkable (HalfPlace.midpoint a b) = true ↔
      ∀ u, (HalfPlace.midpoint a b).Touches u → t.walkable u = true := by
  simp only [areaWalkable, List.all_eq_true]
  constructor
  · intro h u hu
    rw [← h u.x.toInt (HalfPlace.mem_touched_iff.2 hu.1) u.y.toInt (HalfPlace.mem_touched_iff.2 hu.2)]
    symm
    apply walkableAt_of_ofInt? <;> exact Coord.ofInt?_eq_some_iff.2 rfl
  · intro h x hx y hy
    obtain ⟨u, hux, huy⟩ := HalfPlace.exists_tile_of_mem_touched hx hy
    rw [walkableAt_of_ofInt? hux huy]
    rw [HalfPlace.mem_touched_iff, ← Coord.ofInt?_eq_some_iff.1 hux] at hx
    rw [HalfPlace.mem_touched_iff, ← Coord.ofInt?_eq_some_iff.1 huy] at hy
    exact h u ⟨hx, hy⟩

theorem areaWalkable_ofTile (t : Terrain) (a : Tile) : t.areaWalkable (.ofTile a) = t.walkable a := by
  rw [Bool.eq_iff_iff, ← HalfPlace.midpoint_self, areaWalkable_midpoint_iff, HalfPlace.midpoint_self]
  simp [HalfPlace.touches_ofTile_iff]

/-- A body can move between two tiles if half way and at the end it touches walkable tiles only. -/
theorem traversable_iff :
    t.traversable a b = true ↔
      (∀ u, (HalfPlace.midpoint a b).Touches u → t.walkable u = true) ∧ t.walkable b = true := by
  rw [traversable, areaWalkable_ofTile, Bool.and_assoc, Bool.and_self, Bool.and_eq_true,
    areaWalkable_midpoint_iff]

theorem traversable_self (t : Terrain) (a : Tile) : t.traversable a a = t.walkable a := by
  rw [traversable, HalfPlace.midpoint_self, areaWalkable_ofTile, Bool.and_self, Bool.and_self]

theorem traversable_iff_of_distance_eq_one (h : a.distance b = 1) :
    t.traversable a b = true ↔ t.walkable a = true ∧ t.walkable b = true := by
  simp only [traversable_iff, HalfPlace.touches_midpoint_iff h]
  constructor
  · rintro ⟨hall, hb⟩
    exact ⟨hall a (.inl rfl), hb⟩
  · rintro ⟨ha, hb⟩
    refine ⟨?_, hb⟩
    rintro u (rfl | rfl)
    · exact ha
    · exact hb

/-- Between tiles next to each other one can step, either way, when both can be stood on, and one can
stay where one can stand.  Between any two tiles whatever, each tile that is looked at is one of the
grid. -/
theorem traversable_between (t : Terrain) :
    (∀ a b : Tile, a.distance b = 1 →
      (t.traversable a b = true ↔ t.walkable a = true ∧ t.walkable b = true) ∧
      t.traversable b a = t.traversable a b ∧
      (t.walkable a = false → t.traversable a b = false)) ∧
    (∀ a, t.traversable a a = true ↔ t.walkable a = true) ∧
    (∀ a b p, p = HalfPlace.midpoint a b ∨ p = HalfPlace.ofTile b →
      ∀ x ∈ HalfPlace.touched p.x2, ∀ y ∈ HalfPlace.touched p.y2, ∃ u : Tile,
        Coord.ofInt? x = some u.x ∧ Coord.ofInt? y = some u.y ∧
          t.walkableAt x y = t.walkable u) := by
  refine ⟨fun a b h => ⟨traversable_iff_of_distance_eq_one h, ?_, fun ha => ?_⟩, fun a => ?_,
    fun a b p hp x hx y hy => ?_⟩
  · have h' : b.distance a = 1 := by rw [Tile.distance_comm, h]
    rw [Bool.eq_iff_iff, traversable_iff_of_distance_eq_one h,
      traversable_iff_of_distance_eq_one h', and_comm]
  · rw [← Bool.not_eq_true, traversable_iff_of_distance_eq_one h, ha]
    simp
  · rw [traversable_self]
  · -- The middle of a tile is half way from the tile to itself.
    obtain ⟨c, rfl⟩ : ∃ c, p = HalfPlace.midpoint c b := by
      rcases hp with rfl | rfl
      · exact ⟨a, rfl⟩
      · exact ⟨b, (HalfPlace.midpoint_self b).symm⟩
    obtain ⟨u, hux, huy⟩ := HalfPlace.exists_tile_of_mem_touched hx hy
    exact ⟨u, hux, huy, walkableAt_of_ofInt? hux huy⟩

/-- A wall at the end of the first row of the grid. -/
def cornered : Terrain :=
  ({ width := 4, height := 4 : Terrain }.withTileKind { id := "wall", walkable := false }).withTile
    ⟨2147483647, -2147483648⟩ "wall"

/-- Next to the wall one can step away from it, but neither onto it nor out of it.  Half way from one
end of the grid to the other a body touches the two columns in the middle. -/
theorem traversable_between_corner :
    let wall : Tile := ⟨2147483647, -2147483648⟩
    let a : Tile := ⟨2147483646, -2147483648⟩
    let b : Tile := ⟨2147483646, -2147483647⟩
    a.distance b = 1 ∧ cornered.traversable a b = true ∧
      wall.distance a = 1 ∧ cornered.walkable wall = false ∧
      cornered.traversable wall a = false ∧ cornered.traversable a wall = false ∧
      -1 ∈ HalfPlace.touched (HalfPlace.midpoint ⟨-2147483648, 0⟩ wall).x2 ∧
      -1073741824 ∈ HalfPlace.touched (HalfPlace.midpoint ⟨-2147483648, 0⟩ wall).y2 ∧
      ∃ u : Tile, Coord.ofInt? (-1) = some u.x ∧ Coord.ofInt? (-1073741824) = some u.y ∧
        cornered.walkableAt (-1) (-1073741824) = cornered.walkable u := by
  intro wall a b
  obtain ⟨hstep, -, hgrid⟩ := traversable_between cornered
  have hab : a.distance b = 1 := by decide
  have hwall : wall.distance a = 1 := by decide
  have ha : cornered.walkable a = true := by decide +kernel
  have hb : cornered.walkable b = true := by decide +kernel
  have hblocked : cornered.walkable wall = false := by decide +kernel
  obtain ⟨-, hback, hout⟩ := hstep wall a hwall
  have hx : -1 ∈ HalfPlace.touched (HalfPlace.midpoint ⟨-2147483648, 0⟩ wall).x2 := by decide
  have hy : -1073741824 ∈ HalfPlace.touched (HalfPlace.midpoint ⟨-2147483648, 0⟩ wall).y2 := by decide
  exact ⟨hab, (hstep a b hab).1.2 ⟨ha, hb⟩, hwall, hblocked, hout hblocked,
    hback.trans (hout hblocked), hx, hy, hgrid _ _ _ (.inl rfl) _ hx _ hy⟩

end Terrain

end TileRealm
