/-!
# Directions

The four edges across which regions border on each other.
-/

namespace TileRealm

/-- A direction on the grid. -/
inductive Direction where
  /-- Toward larger columns. -/
  | east
  /-- Toward smaller columns. -/
  | west
  /-- Toward larger rows. -/
  | north
  /-- Toward smaller rows. -/
  | south
deriving DecidableEq, Repr

namespace Direction

/-- Every direction, in the order in which edges are looked at. -/
def all : List Direction := [east, west, north, south]

/-- The name of a direction. -/
def name : Direction → String
  | east => "east"
  | west => "west"
  | north => "north"
  | south => "south"

/-- The direction back. -/
def opposite : Direction → Direction
  | east => west
  | west => east
  | north => south
  | south => north

end Direction

end TileRealm
