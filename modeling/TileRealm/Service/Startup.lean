import TileRealm.Realm.Document
import TileRealm.Service.Host
import TileRealm.Settings
import TileRealm.Terrain.Atlas

/-!
# Starting up

From the environment to a host that serves, or to the first thing that stands in the way.  The
directory is asked once on the way; whatever it answers, the start goes on.
-/

namespace TileRealm

/-- The version of the program. -/
def version : String := "0.1.0"

/-- The exit status after an error. -/
def fatalStatus : UInt32 := 2

/-- How long the directory may take to answer, in milliseconds. -/
def directoryTimeout : Nat := 2000

/-- The time between two refreshes of the address book, in milliseconds. -/
def refreshInterval : Nat := 20000

/-- Why a region is not served. -/
inductive StartupError where
  | settings (error : SettingsError)
  | atlas (folder : String) (error : AtlasError)
  /-- There is no map to choose. -/
  | noMap
  | realm (path : String) (error : RealmError)
  /-- The overrides leave the region without a tile. -/
  | bounds (error : SettingsError)
  /-- The map covers no tile of the region. -/
  | noOverlap (region : String) (bounds : Bounds) (map : String)
  /-- The address cannot be listened on. -/
  | bind
deriving DecidableEq, Repr

namespace StartupError

/-- The error in words, without what lies behind it. -/
def headline : StartupError → String
  | settings _ => "reading configuration"
  | atlas folder _ => "loading maps from " ++ folder
  | noMap => "no maps loaded"
  | realm path e => e.message path
  | bounds e => e.message
  | noOverlap region b map =>
    "region " ++ region ++ " bounds " ++ b.text ++ " do not overlap map " ++ map
  | bind => "serving"

end StartupError

/-- What a start depends on. -/
structure Surroundings where
  lookup : String → Option String
  storage : Storage
  /-- The directory's response to a request, if one comes. -/
  directory : HttpRequest → Option HttpResponse
  /-- Whether an address can be listened on. -/
  bind : SocketAddress → Bool

/-- Everything that is settled before the network is touched. -/
structure Plan where
  settings : Settings
  mapName : String
  shard : Shard
  book : AddressBook

namespace Plan

/-- Settle what the variables and the stored files say. -/
def make (lookup : String → Option String) (storage : Storage) : Except StartupError Plan := do
  let settings ← (Settings.ofLookup lookup).mapError .settings
  let atlas ← (Atlas.load (storage settings.mapFolder)).mapError (.atlas settings.mapFolder)
  let some (mapName, terrain) := atlas.select settings.regionName | throw .noMap
  let realm ← (Realm.load (storage settings.realmPath)).mapError (.realm settings.realmPath)
  let region ← (realm.require settings.regionName).mapError (.realm settings.realmPath)
  let bounds ← (settings.boundsFor region).mapError .bounds
  let shard : Shard := { name := region.name, configured := bounds, terrain, realm }
  if shard.effective.isEmpty then throw (.noOverlap region.name bounds mapName)
  return { settings, mapName, shard, book := settings.addressBook region realm }

/-- The client for the directory. -/
def directory (p : Plan) : DirectoryClient :=
  .ofUrl p.settings.directoryUrl p.settings.directoryDisabled

/-- What the directory is asked at the start: where the middle of the region is. -/
def firstLookup (p : Plan) : LookupRequest :=
  let center := p.shard.effective.center
  ⟨p.shard.name, center.x, center.y, GhostZone.minWidth⟩

/-- The request to the directory at the start, unless it is disabled. -/
def firstRequest? (p : Plan) : Option HttpRequest :=
  if p.settings.directoryDisabled then none else some (p.directory.lookupRequest p.firstLookup)

/-- The host that serves the region. -/
def host (p : Plan) : Host where
  world := { shard := p.shard, book := p.book }

end Plan

/-- The course of a start. -/
structure Startup where
  /-- What the directory was asked. -/
  asked : Option HttpRequest
  /-- What came of it. -/
  answer : Option (Except DirectoryError LookupAnswer)
  /-- The address that is listened on. -/
  listensOn : Option SocketAddress
  result : Except StartupError Host

namespace Startup

/-- Start up. -/
def run (s : Surroundings) : Startup :=
  match Plan.make s.lookup s.storage with
  | .error e => ⟨none, none, none, .error e⟩
  | .ok p =>
    let asked := p.firstRequest?
    let bound := s.bind p.settings.bindAddress
    { asked
      answer := asked.map fun r => p.directory.receiveLookup (s.directory r)
      listensOn := if bound then some p.settings.bindAddress else none
      result := if bound then .ok p.host else .error .bind }

/-- The exit status of a process that was interrupted once it served. -/
def exitStatus (s : Startup) : UInt32 :=
  match s.result with
  | .ok _ => 0
  | .error _ => fatalStatus

end Startup

end TileRealm
