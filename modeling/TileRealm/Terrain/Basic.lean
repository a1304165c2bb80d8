import TileRealm.Grid.Tile
import TileRealm.Table

/-!
# Terrain

The map of a region: which tile and which object stands where, what their ids mean, and where
teleports lead.  Whatever is not known is no obstacle.
-/

namespace TileRealm

/-- What a tile id means. -/
structure TileKind where
  id : String
  name : String := ""
  walkable : Bool := true
  blocksVision : Bool := false
deriving DecidableEq, Repr

/-- What an object id means. -/
structure ObjectKind where
  id : String
  name : String := ""
  blocksMovement : Bool := false
  interactable : Bool := false
deriving DecidableEq, Repr

/-- Where a teleport leads. -/
structure Teleport where
  region : String
  target : Tile
deriving DecidableEq, Repr

/-- Why a tile cannot be entered. -/
inductive Obstacle where
  | object
  | tile
deriving DecidableEq, Repr

/-- A map. -/
structure Terrain where
  width : UInt32
  height : UInt32
  tiles : Table Tile String := ∅
  objects : Table Tile String := ∅
  teleports : Table Tile Teleport := ∅
  tileKinds : Table String TileKind := ∅
  objectKinds : Table String ObjectKind := ∅
deriving DecidableEq

namespace Terrain

/-! ### Building -/

/-- Put a tile. -/
def withTile (t : Terrain) (p : Tile) (id : String) : Terrain :=
  { t with tiles := t.tiles.insert p id }

/-- Put an object. -/
def withObject (t : Terrain) (p : Tile) (id : String) : Terrain :=
  { t with objects := t.objects.insert p id }

/-- Put a teleport. -/
def withTeleport (t : Terrain) (p : Tile) (teleport : Teleport) : Terrain :=
  { t with teleports := t.teleports.insert p teleport }

/-- Say what a tile id means. -/
def withTileKind (t : Terrain) (k : TileKind) : Terrain :=
  { t with tileKinds := t.tileKinds.insert k.id k }

/-- Say what an object id means. -/
def withObjectKind (t : Terrain) (k : ObjectKind) : Terrain :=
  { t with objectKinds := t.objectKinds.insert k.id k }

/-! ### Obstacles -/

/-- Whether an object stands there that blocks movement. -/
def objectBlocks (t : Terrain) (p : Tile) : Bool :=
  ((t.objects.get? p).bind t.objectKinds.get?).any fun k => k.blocksMovement

/-- Whether the tile there is of a kind that is not walkable. -/
def tileBlocks (t : Terrain) (p : Tile) : Bool :=
  ((t.tiles.get? p).bind t.tileKinds.get?).any fun k => !k.walkable

/-- Whether one can stand there. -/
def walkable (t : Terrain) (p : Tile) : Bool := !t.objectBlocks p && !t.tileBlocks p

/-- At most `limit` tiles that cannot be entered: those with a blocking object, then the other
ones, each in order. -/
def deadZones (t : Terrain) (limit : Nat) : List (Tile × Obstacle) :=
  let objects := t.objects.keys.filter t.objectBlocks
  let tiles := t.tiles.keys.filter fun p => t.tileBlocks p && !t.objectBlocks p
  (objects.map (·, Obstacle.object) ++ tiles.map (·, Obstacle.tile)).take limit

end Terrain

end TileRealm
