import TileRealm.Grid.Bounds
import TileRealm.Realm.Region

/-!
# Ghost zones

Near an edge of its region a player learns of the neighbours behind it.  Such a ghost zone is the
line of tiles on the edge and up to three more lines inward.
-/

namespace TileRealm

namespace GhostZone

/-- The smallest width. -/
def minWidth : Int32 := 1

/-- The largest width. -/
def maxWidth : Int32 := 3

/-- The width next to a wished one that a zone may have. -/
def clampWidth (width : Int32) : Int32 :=
  if width < minWidth then minWidth else if maxWidth < width then maxWidth else width

/-- Whether a tile is within the width of the edge that faces a direction, or beyond it. -/
def isNear (bounds : Bounds) (t : Tile) (width : Int32) (d : Direction) : Bool :=
  let g := (clampWidth width).toInt
  match d with
  | .east => bounds.maxX.toInt - g ≤ t.x.toInt
  | .west => t.x.toInt ≤ bounds.minX.toInt + g
  | .north => bounds.maxY.toInt - g ≤ t.y.toInt
  | .south => t.y.toInt ≤ bounds.minY.toInt + g

/-- The zone along the edge that faces a direction. -/
def strip (bounds : Bounds) (width : Int32) (d : Direction) : Bounds :=
  let g := (clampWidth width).toInt
  match d with
  | .east => { bounds with minX := .saturate (bounds.maxX.toInt - g) }
  | .west => { bounds with maxX := .saturate (bounds.minX.toInt + g) }
  | .north => { bounds with minY := .saturate (bounds.maxY.toInt - g) }
  | .south => { bounds with maxY := .saturate (bounds.minY.toInt + g) }

end GhostZone

end TileRealm
