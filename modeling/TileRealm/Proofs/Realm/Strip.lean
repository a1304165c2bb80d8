import TileRealm.Proofs.Realm.Neighbors

/-!
# Strips along the edges

The strip along an edge holds the tiles that lie at most the width inward of it, also where it is cut
off by the end of the grid (`GhostZone.contains_strip_iff`).  So of the tiles of bounds the strip
holds those that the search for neighbours treats as near to the edge
(`GhostZone.contains_strip_iff_near`).
-/

namespace TileRealm

namespace Bounds

variable {b : Bounds} {t : Tile}

/-- A tile lies inside when it is past no edge, looked at across any two opposite ones. -/
theorem contains_iff_depth (d : Direction) :
    b.contains t = true ↔ (0 ≤ b.depth d t ∧ 0 ≤ b.depth d.opposite t) ∧
      (b.start d).toInt ≤ d.along t ∧ d.along t ≤ (b.stop d).toInt := by
  rw [contains_iff]
  cases d <;>
    simp only [depth, outward, edge, Direction.opposite, Direction.across, Direction.along, start,
      stop] <;>
    omega

/-- The tile next to the origin in a direction. -/
def beside : Direction → Bounds
  | .east => ⟨1, 1, 0, 0⟩
  | .west => ⟨-1, -1, 0, 0⟩
  | .north => ⟨0, 0, 1, 1⟩
  | .south => ⟨0, 0, -1, -1⟩

theorem borders_beside_iff {d d' : Direction} :
    (⟨0, 0, 0, 0⟩ : Bounds).borders (beside d) d' = true ↔ d' = d := by
  cases d <;> cases d' <;> decide

end Bounds

namespace GhostZone

variable {b : Bounds} {t : Tile} {width : Int32} {d : Direction}

/-- A strip can reach past the opposite edge of its bounds, but not past its own edge, and not past
the ends of that. -/
theorem contains_strip_iff :
    (strip b width d).contains t = true ↔
      (0 ≤ b.depth d t ∧ b.depth d t ≤ max 1 (min width.toInt 3)) ∧
        (b.start d).toInt ≤ d.along t ∧ d.along t ≤ (b.stop d).toInt := by
  have hwidth := clampWidth_nonneg width
  have hminX := Coord.least_le_toInt b.minX
  have hmaxX := Coord.toInt_le_greatest b.maxX
  have hminY := Coord.least_le_toInt b.minY
  have hmaxY := Coord.toInt_le_greatest b.maxY
  rw [← toInt_clampWidth, Bounds.contains_iff]
  cases d <;>
    simp only [strip, Coord.saturate_le_iff, Coord.le_saturate_iff, Bounds.depth, Bounds.outward,
      Bounds.edge, Direction.across, Direction.along, Bounds.start, Bounds.stop] <;>
    omega

theorem contains_strip_iff_isNear (h : b.contains t = true) :
    (strip b width d).contains t = true ↔ isNear b t width d = true := by
  obtain ⟨⟨hdepth, -⟩, halong⟩ := (Bounds.contains_iff_depth d).1 h
  rw [contains_strip_iff, isNear_iff]
  exact ⟨fun hstrip => hstrip.1.2, fun hnear => ⟨⟨hdepth, hnear⟩, halong⟩⟩

/-- The search treats a tile as near to an edge: whatever borders across that edge is found from the
tile, or a region of its name is. -/
def TreatsAsNear (effective : Bounds) (t : Tile) (width : Int32) (d : Direction) : Prop :=
  ∀ (w : Realm) (current : String) (mine : Bounds), ∀ r ∈ w.regions, r.isNamed current = false →
    mine.borders r.bounds d = true →
      ∃ n ∈ w.near current mine effective t width, n.region.isNamed r.name = true

/-- A region that borders across one edge alone shows whether a tile is near to that edge. -/
theorem treatsAsNear_iff : TreatsAsNear b t width d ↔ isNear b t width d = true := by
  constructor
  · intro h
    let r : Region := ⟨"beside", Bounds.beside d, none, {}⟩
    have hother : Text.sameName "beside" "" = false := by decide
    obtain ⟨n, hn, -⟩ := h ⟨[r]⟩ "" ⟨0, 0, 0, 0⟩ r List.mem_cons_self hother
      (Bounds.borders_beside_iff.2 rfl)
    obtain ⟨hnear, hr, -, hborders⟩ := Realm.of_mem_near hn
    rw [List.mem_singleton.1 hr, Bounds.borders_beside_iff] at hborders
    rwa [hborders] at hnear
  · intro h w current mine r hr hother hborders
    exact Realm.exists_mem_near_iff.2 ⟨d, h, r, hr, Text.sameName_self r.name, hother, hborders⟩

/-- A tile of bounds lies in the strip along an edge just when the search, with these bounds as the
effective ones, treats it as near to that edge, for every width, also where the bounds are narrower
than the strip and where the strip is cut off at the end of the grid.  So the search could as well
ask which strips hold the tile. -/
theorem contains_strip_iff_near (h : b.contains t = true) (width : Int32) :
    (∀ d, (strip b width d).contains t = true ↔ isNear b t width d = true) ∧
    (∀ d, (strip b width d).contains t = true ↔ TreatsAsNear b t width d) ∧
    ∀ (w : Realm) (current : String) (mine : Bounds),
      w.near current mine b t width = Realm.firstOfName (Direction.all.flatMap fun d =>
        if (strip b width d).contains t then w.across current mine d else []) := by
  refine ⟨fun d => contains_strip_iff_isNear h, fun d => ?_, fun w current mine => ?_⟩
  · rw [contains_strip_iff_isNear h, treatsAsNear_iff]
  · simp only [Realm.near, contains_strip_iff_isNear h]

/-- Bounds from the first column of the grid whose two rows are the last ones.  With width 3 the strip
in the south stops at the last row, and the one in the north begins in front of the bounds.  A tile in
the third column is in both and in the strip in the west, and not in the one in the east. -/
theorem contains_strip_iff_near_ledge :
    let ledge : Bounds := ⟨-2147483648, 9, 2147483646, 2147483647⟩
    let t : Tile := ⟨-2147483646, 2147483646⟩
    ledge.contains t = true ∧
      strip ledge 9 .south = ⟨-2147483648, 9, 2147483646, 2147483647⟩ ∧
      strip ledge 9 .north = ⟨-2147483648, 9, 2147483644, 2147483647⟩ ∧
      TreatsAsNear ledge t 9 .south ∧ TreatsAsNear ledge t 9 .north ∧ TreatsAsNear ledge t 9 .west ∧
      ¬ TreatsAsNear ledge t 9 .east := by
  intro ledge t
  have hinside : ledge.contains t = true := by decide
  obtain ⟨-, hnear, -⟩ := contains_strip_iff_near hinside 9
  exact ⟨hinside, by decide, by decide, (hnear .south).1 (by decide), (hnear .north).1 (by decide),
    (hnear .west).1 (by decide), fun heast => absurd ((hnear .east).2 heast) (by decide)⟩

end GhostZone

end TileRealm
