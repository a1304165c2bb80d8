import TileRealm.Json.Record
import TileRealm.Realm.Basic
import TileRealm.Storage

/-!
# Realm documents

The document that describes every region.  A document with a region that holds no tile is
refused.
-/

namespace TileRealm

/-- Why a realm, or a region of it, cannot be used. -/
inductive RealmError where
  | unreadable (error : ReadError)
  | malformed
  | unknownRegion (name : String)
  | emptyBounds (name : String)
deriving DecidableEq, Repr

namespace RealmError

/-- The error in words; `path` is where the document is. -/
def message (path : String) : RealmError → String
  | unreadable _ => "failed to read topology " ++ path
  | malformed => "invalid topology " ++ path
  | unknownRegion name => "region '" ++ name ++ "' not found in topology"
  | emptyBounds name => "region '" ++ name ++ "' has empty bounds"

end RealmError

namespace Neighbors

/-- The name of a neighbour; blank ones count as missing. -/
def name? (v : Json) : Option (Option String) :=
  (Json.nullable? Json.text? v).map (·.bind Text.nonBlank?)

/-- The neighbours that a record names. -/
def ofJson? (v : Json) : Option Neighbors := do
  let [east, west, north, south] ← v.fields? [["east"], ["west"], ["north"], ["south"]] | none
  let east ← Json.optional name? none east
  let west ← Json.optional name? none west
  let north ← Json.optional name? none north
  let south ← Json.optional name? none south
  return ⟨east, west, north, south⟩

end Neighbors

namespace Region

/-- The region that a record describes. -/
def ofJson? (v : Json) : Option Region := do
  let [name, minX, maxX, minY, maxY, tcpPort, neighbors] ←
    v.fields? [["name"], ["minX"], ["maxX"], ["minY"], ["maxY"], ["tcpPort"], ["neighbors"]] | none
  let name ← Json.required Json.text? name
  let minX ← Json.required Json.int32? minX
  let maxX ← Json.required Json.int32? maxX
  let minY ← Json.required Json.int32? minY
  let maxY ← Json.required Json.int32? maxY
  let tcpPort ← Json.optional (Json.nullable? Json.int32?) none tcpPort
  let neighbors ← Json.optional Neighbors.ofJson? {} neighbors
  return ⟨name, ⟨minX, maxX, minY, maxY⟩, tcpPort, neighbors⟩

end Region

namespace Realm

/-- The regions that a document describes. -/
def ofJson? (v : Json) : Option Realm := do
  let [namespaceName, basePort, regions] ←
    v.fields? [["namespace"], ["basePort"], ["regions"]] | none
  let _ ← Json.optional Json.text? "" namespaceName
  let _ ← Json.optional (Json.nullable? Json.int32?) none basePort
  let regions ← Json.required (Json.list? Region.ofJson?) regions
  return ⟨regions⟩

/-- The realm of a document, none of whose regions may be empty. -/
def parse (text : String) : Except RealmError Realm :=
  match (Json.parse text).bind ofJson? with
  | none => .error .malformed
  | some w =>
    match w.emptyRegion? with
    | some r => .error (.emptyBounds r.name)
    | none => .ok w

/-- Load a realm document. -/
def load (file : Option StoredNode) : Except RealmError Realm :=
  match StoredNode.readText file with
  | .error e => .error (.unreadable e)
  | .ok text => parse text

/-- The region with a name, which has to be there. -/
def require (w : Realm) (name : String) : Except RealmError Region :=
  match w.get? name with
  | some r => .ok r
  | none => .error (.unknownRegion name)

end Realm

end TileRealm
