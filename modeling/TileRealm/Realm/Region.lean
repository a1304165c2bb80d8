import TileRealm.Grid.Bounds
import TileRealm.Realm.Direction
import TileRealm.Text.Blank
import TileRealm.Text.Fold

/-!
# Regions

A region of the realm, with its bounds, and when two bounds border on each other.
-/

namespace TileRealm

/-- The names of a region's neighbours, where it has one. -/
structure Neighbors where
  east : Option String := none
  west : Option String := none
  north : Option String := none
  south : Option String := none
deriving DecidableEq, Repr

namespace Neighbors

/-- The neighbour in a direction. -/
def get? (n : Neighbors) : Direction → Option String
  | .east => n.east
  | .west => n.west
  | .north => n.north
  | .south => n.south

end Neighbors

/-- A region. -/
structure Region where
  name : String
  bounds : Bounds
  /-- The port on which it can be reached on the same host. -/
  tcpPort : Option Int32 := none
  neighbors : Neighbors := {}
deriving DecidableEq, Repr

namespace Region

/-- Whether a name is that of the region; case does not matter. -/
def isNamed (r : Region) (name : String) : Bool := Text.sameName r.name name

end Region

namespace Bounds

/-- The coordinate of the edge that faces a direction. -/
def edge (b : Bounds) : Direction → Coord
  | .east => b.maxX
  | .west => b.minX
  | .north => b.maxY
  | .south => b.minY

/-- What moving one tile in a direction adds to the coordinate across it. -/
def outward : Direction → Int
  | .east => 1
  | .west => -1
  | .north => 1
  | .south => -1

/-- Whether two bounds have a row in common, or a column, whichever runs along the edge. -/
def alongside (a b : Bounds) : Direction → Bool
  | .east => rangesOverlap a.minY a.maxY b.minY b.maxY
  | .west => rangesOverlap a.minY a.maxY b.minY b.maxY
  | .north => rangesOverlap a.minX a.maxX b.minX b.maxX
  | .south => rangesOverlap a.minX a.maxX b.minX b.maxX

/-- Whether `other` borders on `mine` across the edge that faces `d`: its opposite edge lies on
that edge or one tile farther out, and the two run alongside each other. -/
def borders (mine other : Bounds) (d : Direction) : Bool :=
  let theirs := (other.edge d.opposite).toInt
  let ours := (mine.edge d).toInt
  (theirs == ours || theirs == ours + outward d) && alongside mine other d

end Bounds

end TileRealm
