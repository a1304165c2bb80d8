import TileRealm.Realm.GhostZone

/-!
# The realm

All regions, and the search for the neighbours that a place is near to.
-/

namespace TileRealm

/-- The regions, in the order in which they are looked through. -/
structure Realm where
  regions : List Region := []
deriving DecidableEq, Repr

/-- A region near a place, and the direction in which it lies. -/
structure Nearby where
  region : Region
  direction : Direction
deriving DecidableEq, Repr

namespace Realm

/-- The region with a name, in any case. -/
def get? (w : Realm) (name : String) : Option Region := w.regions.find? fun r => r.isNamed name

/-- The first region that holds a tile. -/
def regionAt? (w : Realm) (t : Tile) : Option Region := w.regions.find? fun r => r.bounds.contains t

/-- The first region whose bounds hold no tile. -/
def emptyRegion? (w : Realm) : Option Region := w.regions.find? fun r => r.bounds.isEmpty

/-- Of the entries with one name, only the first. -/
def firstOfName : List Nearby → List Nearby
  | [] => []
  | n :: ns => n :: (firstOfName ns).filter fun m => !Text.sameName n.region.name m.region.name

/-- The regions other than `current` that border on the bounds `mine` across an edge. -/
def across (w : Realm) (current : String) (mine : Bounds) (d : Direction) : List Nearby :=
  (w.regions.filter fun r => !r.isNamed current && mine.borders r.bounds d).map (⟨·, d⟩)

/-- The regions that border on the bounds `mine` of the region `current` across an edge that a
tile is near to, where the edges are those of the bounds `effective`.  A region is listed once,
for the first such edge. -/
def near (w : Realm) (current : String) (mine effective : Bounds) (t : Tile) (width : Int32) :
    List Nearby :=
  firstOfName <| Direction.all.flatMap fun d =>
    if GhostZone.isNear effective t width d then w.across current mine d else []

end Realm

end TileRealm
