import TileRealm.Terrain.Basic

/-!
# Passage

Whether a body can stand on a place and move between two tiles.  Places are measured in half
tiles, so that the middle between two tiles is a place, too; a body there touches every tile it
overlaps.
-/

namespace TileRealm

/-- A place in half tiles. -/
structure HalfPlace where
  x2 : Int
  y2 : Int
deriving DecidableEq, Repr

namespace HalfPlace

/-- The middle of a tile. -/
def ofTile (t : Tile) : HalfPlace := ⟨2 * t.x.toInt, 2 * t.y.toInt⟩

/-- The middle between two tiles. -/
def midpoint (a b : Tile) : HalfPlace := ⟨a.x.toInt + b.x.toInt, a.y.toInt + b.y.toInt⟩

/-- The tiles, along one axis, that a body touches: its own, or the two on either side. -/
def touched (c2 : Int) : List Int :=
  let low := c2 / 2
  let high := (c2 + 1) / 2
  if low = high then [low] else [low, high]

end HalfPlace

namespace Terrain

/-- Whether a tile given by whole numbers is on the grid and can be stood on. -/
def walkableAt (t : Terrain) (x y : Int) : Bool :=
  match Coord.ofInt? x, Coord.ofInt? y with
  | some x, some y => t.walkable ⟨x, y⟩
  | _, _ => false

/-- Whether a body at a place touches only tiles that can be stood on. -/
def areaWalkable (t : Terrain) (p : HalfPlace) : Bool :=
  (HalfPlace.touched p.x2).all fun x => (HalfPlace.touched p.y2).all fun y => t.walkableAt x y

/-- Whether a body can move between two tiles: half way and at the end it must find room. -/
def traversable (t : Terrain) (a b : Tile) : Bool :=
  t.areaWalkable (.midpoint a b) && t.areaWalkable (.ofTile b) && t.walkable b

end Terrain

end TileRealm
