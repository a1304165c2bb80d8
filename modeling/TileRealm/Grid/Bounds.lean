import TileRealm.Grid.Tile

/-!
# Bounds

Rectangles of tiles, given by their outermost columns and rows.  Bounds whose ends are the wrong
way round hold no tile.
-/

namespace TileRealm

/-- Whether two ranges, ends included, have a number in common. -/
def rangesOverlap (aMin aMax bMin bMax : Coord) : Bool := aMin ≤ bMax && bMin ≤ aMax

/-- The tiles from `minX` to `maxX` and from `minY` to `maxY`, ends included. -/
structure Bounds where
  minX : Coord
  maxX : Coord
  minY : Coord
  maxY : Coord
deriving DecidableEq, Repr, Inhabited

namespace Bounds

/-- Every tile there is. -/
def unbounded : Bounds :=
  ⟨.saturate Coord.least, .saturate Coord.greatest, .saturate Coord.least,
    .saturate Coord.greatest⟩

/-- The tiles of a map of the given size whose first tile is `origin`. -/
def anchored (origin : Tile) (width height : UInt32) : Bounds :=
  ⟨origin.x, .saturate (origin.x.toInt + width.toNat - 1),
    origin.y, .saturate (origin.y.toInt + height.toNat - 1)⟩

/-- Whether a tile lies inside. -/
def contains (b : Bounds) (t : Tile) : Bool :=
  b.minX ≤ t.x && t.x ≤ b.maxX && b.minY ≤ t.y && t.y ≤ b.maxY

/-- The larger of two coordinates. -/
def larger (a b : Coord) : Coord := if a ≤ b then b else a

/-- The smaller of two coordinates. -/
def smaller (a b : Coord) : Coord := if a ≤ b then a else b

/-- The tiles that lie in both. -/
def inter (a b : Bounds) : Bounds :=
  ⟨larger a.minX b.minX, smaller a.maxX b.maxX, larger a.minY b.minY, smaller a.maxY b.maxY⟩

/-- Whether no tile lies inside. -/
def isEmpty (b : Bounds) : Bool := b.maxX < b.minX || b.maxY < b.minY

/-- The tile in the middle, toward the smaller coordinates when there are two. -/
def center (b : Bounds) : Tile :=
  ⟨.saturate ((b.minX.toInt + b.maxX.toInt) / 2), .saturate ((b.minY.toInt + b.maxY.toInt) / 2)⟩

/-- The written form of a range, `[min, max]`. -/
def rangeText (lo hi : Coord) : String :=
  "[" ++ Numeral.ofInt lo.toInt ++ ", " ++ Numeral.ofInt hi.toInt ++ "]"

/-- The written form `[minX, maxX]x[minY, maxY]`. -/
def text (b : Bounds) : String := rangeText b.minX b.maxX ++ "x" ++ rangeText b.minY b.maxY

end Bounds

end TileRealm
