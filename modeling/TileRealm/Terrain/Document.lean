import TileRealm.Json.Record
import TileRealm.Storage
import TileRealm.Terrain.Basic

/-!
# Map documents

A map is stored in three files: the layout, the kinds of tiles and the kinds of objects.  Where a
layout names a position twice, or a list of kinds an id, the last entry counts.
-/

namespace TileRealm

/-- The part of a stored map. -/
inductive MapFile where
  | layout
  | tileKinds
  | objectKinds
deriving DecidableEq, Repr

namespace MapFile

/-- The parts in the order in which they are read. -/
def all : List MapFile := [layout, tileKinds, objectKinds]

/-- The file of a part. -/
def fileName : MapFile → String
  | layout => "map.json"
  | tileKinds => "tile_definitions.json"
  | objectKinds => "object_definitions.json"

end MapFile

/-- Why a map could not be loaded: the first part at fault. -/
inductive MapError where
  | unreadable (file : MapFile) (error : ReadError)
  | malformed (file : MapFile)
deriving DecidableEq, Repr

/-- The layout of a map as it is stored. -/
structure Layout where
  width : UInt32
  height : UInt32
  tiles : List (Tile × String)
  objects : List (Tile × String)
  teleports : List (Tile × Teleport)
deriving DecidableEq, Repr

namespace Layout

/-- A position and the id that stands there, under a name of its own. -/
def placed? (idName : String) (v : Json) : Option (Tile × String) := do
  let [x, y, id] ← v.fields? [["x"], ["y"], [idName]] | none
  let x ← Json.required Json.int32? x
  let y ← Json.required Json.int32? y
  let id ← Json.required Json.text? id
  return (⟨x, y⟩, id)

/-- A position and the teleport there. -/
def teleport? (v : Json) : Option (Tile × Teleport) := do
  let [x, y, region, targetX, targetY] ←
    v.fields? [["x"], ["y"], ["targetRegion"], ["targetX"], ["targetY"]] | none
  let x ← Json.required Json.int32? x
  let y ← Json.required Json.int32? y
  let region ← Json.required Json.text? region
  let targetX ← Json.required Json.int32? targetX
  let targetY ← Json.required Json.int32? targetY
  return (⟨x, y⟩, ⟨region, ⟨targetX, targetY⟩⟩)

/-- The layout that a document describes. -/
def ofJson? (v : Json) : Option Layout := do
  let [width, height, tiles, objects, teleports] ←
    v.fields? [["width"], ["height"], ["tiles"], ["objects"], ["teleports"]] | none
  let width ← Json.required Json.uint32? width
  let height ← Json.required Json.uint32? height
  let tiles ← Json.optional (Json.list? (placed? "tileId")) [] tiles
  let objects ← Json.optional (Json.list? (placed? "objectId")) [] objects
  let teleports ← Json.optional (Json.nullable? (Json.list? teleport?)) none teleports
  return ⟨width, height, tiles, objects, teleports.getD []⟩

end Layout

/-- The kind of tile that a record describes. -/
def TileKind.ofJson? (v : Json) : Option TileKind := do
  let [id, name, walkable, blocksVision] ←
    v.fields? [["tileId"], ["name", "nome"], ["isWalkable"], ["blocksVision"]] | none
  let id ← Json.required Json.text? id
  let name ← Json.optional Json.text? "" name
  let walkable ← Json.optional Json.bool? true walkable
  let blocksVision ← Json.optional Json.bool? false blocksVision
  return ⟨id, name, walkable, blocksVision⟩

/-- The kind of object that a record describes. -/
def ObjectKind.ofJson? (v : Json) : Option ObjectKind := do
  let [id, name, blocksMovement, interactable] ←
    v.fields? [["objectId"], ["name", "nome"], ["blocksMovement"], ["interactable"]] | none
  let id ← Json.required Json.text? id
  let name ← Json.optional Json.text? "" name
  let blocksMovement ← Json.optional Json.bool? false blocksMovement
  let interactable ← Json.optional Json.bool? false interactable
  return ⟨id, name, blocksMovement, interactable⟩

namespace Terrain

/-- The map of a layout and of lists of kinds. -/
def ofLayout (l : Layout) (tileKinds : List TileKind) (objectKinds : List ObjectKind) : Terrain where
  width := l.width
  height := l.height
  tiles := .ofList l.tiles
  objects := .ofList l.objects
  teleports := .ofList l.teleports
  tileKinds := .ofList (tileKinds.map fun k => (k.id, k))
  objectKinds := .ofList (objectKinds.map fun k => (k.id, k))

/-- Read a part of a map. -/
def readPart {α : Type} (files : MapFile → Option StoredNode) (part : MapFile)
    (ofJson? : Json → Option α) : Except MapError α :=
  match StoredNode.readText (files part) with
  | .error e => .error (.unreadable part e)
  | .ok text =>
    match (Json.parse text).bind ofJson? with
    | some a => .ok a
    | none => .error (.malformed part)

/-- Load a map from its three files. -/
def load (files : MapFile → Option StoredNode) : Except MapError Terrain := do
  let layout ← readPart files .layout Layout.ofJson?
  let tileKinds ← readPart files .tileKinds (Json.list? TileKind.ofJson?)
  let objectKinds ← readPart files .objectKinds (Json.list? ObjectKind.ofJson?)
  return ofLayout layout tileKinds objectKinds

end Terrain

end TileRealm
