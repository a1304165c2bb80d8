import TileRealm.Address.Endpoint
import TileRealm.Address.Book
import TileRealm.Address.Socket
import TileRealm.Realm.Region
import TileRealm.Storage

/-!
# Settings

What a region process is told by its environment.  Blank variables count as missing.
-/

namespace TileRealm

/-- Why the environment is of no use. -/
inductive SettingsError where
  | missingRegionName
  /-- A variable has a value that it cannot have. -/
  | invalid (key value reason : String)
  /-- The overrides leave the region without a tile. -/
  | emptyBounds (region : String) (bounds : Bounds)
deriving DecidableEq, Repr

namespace SettingsError

/-- The error in words. -/
def message : SettingsError → String
  | missingRegionName => "REGION_NAME is not set"
  | invalid key value reason => "invalid " ++ key ++ "=" ++ value ++ ": " ++ reason
  | emptyBounds region bounds => "region " ++ region ++ " has empty bounds " ++ bounds.text

end SettingsError

/-- The folder of the maps, unless another one is named. -/
def defaultMapFolder : String := "data"

/-- Where the directory is, unless it is named. -/
def defaultDirectoryUrl : String := "http://directory:8085"

/-- The port to listen on, unless another one is named. -/
def defaultPort : UInt16 := 9090

/-- What a region process is told. -/
structure Settings where
  regionName : String
  /-- Bounds in place of those of the realm. -/
  minX : Option Int32
  maxX : Option Int32
  minY : Option Int32
  maxY : Option Int32
  /-- Addresses to fall back on, by the direction of the neighbour. -/
  neighborAddresses : List (Direction × String)
  mapFolder : String
  realmPath : String
  directoryUrl : String
  directoryDisabled : Bool
  preference : Preference
  bindAddress : SocketAddress
deriving DecidableEq, Repr

namespace Settings

/-- The variable with the address of the neighbour in a direction. -/
def neighborVariable : Direction → String
  | .east => "NEIGHBOR_EAST"
  | .west => "NEIGHBOR_WEST"
  | .north => "NEIGHBOR_NORTH"
  | .south => "NEIGHBOR_SOUTH"

/-- All variables that matter. -/
def variableNames : List String :=
  ["REGION_NAME", "MAP_DATA_DIR", "WORLD_REGIONS_JSON", "ENDPOINT_PREFERENCE", "TCP_BIND",
    "REGION_MIN_X", "REGION_MAX_X", "REGION_MIN_Y", "REGION_MAX_Y", "DIRECTORY_BASE_URL",
    "DIRECTORY_DISABLE"] ++ Direction.all.map neighborVariable

/-- The value of a variable, or what is to be used without one. -/
def valueOf (get : String → Option String) (key : String) (missing : String) : String :=
  (get key).getD missing

/-- Read the value of a variable that is there. -/
def readOptional {α : Type} (get : String → Option String) (key : String)
    (read : String → Except String α) : Except SettingsError (Option α) :=
  match get key with
  | none => .ok none
  | some v =>
    match read v with
    | .ok a => .ok (some a)
    | .error reason => .error (.invalid key v reason)

/-- A preference, or why a text is none. -/
def readPreference (v : String) : Except String Preference :=
  (Preference.parse v).mapError Preference.errorMessage

/-- An address to listen on, or why a text is none. -/
def readAddress (v : String) : Except String SocketAddress :=
  match SocketAddress.parse v with
  | some a => .ok a
  | none => .error "invalid socket address syntax"

/-- A coordinate, or why a text is none. -/
def readCoord (v : String) : Except String Int32 :=
  (Numeral.readInt32 v.toList).mapError NumeralError.message

/-- Whether the value of a switch turns it on. -/
def isOn (v : String) : Bool := Text.sameName v "true" || v == "1"

/-- Read the settings from variables. -/
def ofLookup (lookup : String → Option String) : Except SettingsError Settings := do
  let get (key : String) : Option String := (lookup key).bind Text.nonBlank?
  let some regionName := get "REGION_NAME" | throw .missingRegionName
  let mapFolder := valueOf get "MAP_DATA_DIR" defaultMapFolder
  let preference ← readOptional get "ENDPOINT_PREFERENCE" readPreference
  let bindAddress ← readOptional get "TCP_BIND" readAddress
  let minX ← readOptional get "REGION_MIN_X" readCoord
  let maxX ← readOptional get "REGION_MAX_X" readCoord
  let minY ← readOptional get "REGION_MIN_Y" readCoord
  let maxY ← readOptional get "REGION_MAX_Y" readCoord
  return {
    regionName, minX, maxX, minY, maxY, mapFolder
    neighborAddresses := Direction.all.filterMap fun d => (get (neighborVariable d)).map (d, ·)
    realmPath := valueOf get "WORLD_REGIONS_JSON"
      (joinPath (joinPath mapFolder "Game") "world.regions.json")
    directoryUrl := valueOf get "DIRECTORY_BASE_URL" defaultDirectoryUrl
    directoryDisabled := (get "DIRECTORY_DISABLE").any isOn
    preference := preference.getD .cluster
    bindAddress := bindAddress.getD (.v4 0 0 0 0 defaultPort) }

/-- Bounds with the overrides in place of what they override. -/
def overridden (s : Settings) (b : Bounds) : Bounds :=
  ⟨s.minX.getD b.minX, s.maxX.getD b.maxX, s.minY.getD b.minY, s.maxY.getD b.maxY⟩

/-- The bounds of the process's region, which must hold a tile. -/
def boundsFor (s : Settings) (r : Region) : Except SettingsError Bounds :=
  let b := s.overridden r.bounds
  if b.isEmpty then .error (.emptyBounds r.name b) else .ok b

/-- The endpoints to fall back on, for the neighbours that the region names. -/
def neighborFallbacks (s : Settings) (r : Region) : List (String × Endpoint) :=
  s.neighborAddresses.filterMap fun (d, address) => do
    let name ← r.neighbors.get? d
    let e ← Endpoint.parse address
    return (name, e)

/-- What is known of addresses before the directory reports: the ports of the realm, and the
endpoints to fall back on for the neighbours of the process's region. -/
def addressBook (s : Settings) (r : Region) (w : Realm) : AddressBook :=
  (s.neighborFallbacks r).foldl (fun b (name, e) => b.withFallback name e)
    (.seeded s.preference w)

end Settings

end TileRealm
