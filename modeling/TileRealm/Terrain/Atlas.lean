import TileRealm.Terrain.Document
import TileRealm.Text.Fold

/-!
# Atlases

The maps that a data folder holds, by the names of their folders, and the choice of the one for a
region.
-/

namespace TileRealm

/-- Maps by name. -/
abbrev Atlas := Table String Terrain

/-- Why no maps were found. -/
inductive AtlasError where
  /-- The data folder cannot be listed. -/
  | unreadable (error : ReadError)
  /-- No folder in it holds a map that can be loaded. -/
  | noMaps
deriving DecidableEq, Repr

namespace Atlas

/-- The map in a folder, if all three files are there and can be read. -/
def mapIn? (entries : List (String × StoredNode)) : Option Terrain :=
  let files (part : MapFile) := StoredNode.child? part.fileName entries
  if MapFile.all.all fun part => StoredNode.isFile (files part) then
    (Terrain.load files).toOption
  else none

/-- The maps in the folders among some entries; everything else is passed over. -/
def ofEntries (entries : List (String × StoredNode)) : Atlas :=
  Table.ofList <| entries.filterMap fun (name, node) =>
    match node with
    | .folder inner => (mapIn? inner).map (name, ·)
    | .file _ => none

/-- Load the maps of a data folder, of which there must be one at least. -/
def load : Option StoredNode → Except AtlasError Atlas
  | none => .error (.unreadable .notFound)
  | some (.file _) => .error (.unreadable .isFile)
  | some (.folder entries) =>
    let atlas := ofEntries entries
    if atlas.isEmpty then .error .noMaps else .ok atlas

/-- The map for a region: the first by name that is named like it, else the first one. -/
def select (atlas : Atlas) (region : String) : Option (String × Terrain) :=
  (atlas.toList.find? fun e => Text.sameName e.1 region).or atlas.toList.head?

end Atlas

end TileRealm
