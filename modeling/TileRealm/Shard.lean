import TileRealm.Address.Book
import TileRealm.Grid.Chunk
import TileRealm.Terrain.Passage

/-!
# Shards

The part of the realm that one process serves: a region with its map.  The playable tiles are
those of the region that the map covers; the map's first tile is the region's first tile.
-/

namespace TileRealm

/-- A region as it is served. -/
structure Shard where
  name : String
  /-- The bounds that the region was given. -/
  configured : Bounds
  terrain : Terrain
  realm : Realm
  chunkSize : ChunkSize := .standard

/-- A neighbouring region that a place is near to. -/
structure GhostCandidate where
  region : String
  direction : Direction
  /-- Where it can be reached, if that is known. -/
  endpoint : Option Endpoint
deriving DecidableEq, Repr

/-- The most tiles that a player is told not to enter. -/
def deadZoneLimit : Nat := 1024

namespace Shard

/-- The playable bounds. -/
def effective (s : Shard) : Bounds :=
  s.configured.inter <|
    .anchored ⟨s.configured.minX, s.configured.minY⟩ s.terrain.width s.terrain.height

/-- Whether a tile is playable. -/
def isInside (s : Shard) (t : Tile) : Bool := s.effective.contains t

/-- The chunk of a tile. -/
def chunkOf (s : Shard) (t : Tile) : Chunk := s.chunkSize.chunkOf t

/-- The teleport on a tile. -/
def teleport? (s : Shard) (t : Tile) : Option Teleport := s.terrain.teleports.get? t

/-- The tiles that a player is told not to enter. -/
def deadZones (s : Shard) : List Tile := (s.terrain.deadZones deadZoneLimit).map Prod.fst

/-- The neighbours that a tile is near to, with the endpoints that a book has for them. -/
def neighborsNear (s : Shard) (book : AddressBook) (t : Tile) (width : Int32) :
    List GhostCandidate :=
  (s.realm.near s.name s.configured s.effective t width).map fun n =>
    ⟨n.region.name, n.direction, book.resolve n.region.name⟩

end Shard

end TileRealm
