import TileRealm.Address.Endpoint
import TileRealm.Realm.Basic
import TileRealm.Table

/-!
# Address books

What is known of the addresses of regions: those given at the start, those that the directory
reported, and fallbacks for when there is nothing better.  An address that the directory no
longer reports stays.
-/

namespace TileRealm

/-- Which of two addresses players are told first. -/
inductive Preference where
  /-- The address on the host. -/
  | host
  /-- The address within the cluster. -/
  | cluster
deriving DecidableEq, Repr

namespace Preference

/-- The name of a preference. -/
def name : Preference → String
  | .host => "local"
  | .cluster => "cluster"

/-- The preference that a text names, or else the text as it was compared. -/
def parse (s : String) : Except String Preference :=
  let t := Text.fold (Text.trim s)
  if t == "local" then .ok .host
  else if t == "cluster" then .ok .cluster
  else .error t

/-- What is wrong with a text that names no preference. -/
def errorMessage (compared : String) : String :=
  "unknown endpoint preference '" ++ compared ++ "'"

end Preference

/-- What is known of a region's addresses. -/
structure AddressEntry where
  clusterAddress : Option String := none
  localAddress : Option String := none
  online : Bool := false
  /-- When the directory last reported it, in milliseconds. -/
  lastChecked : Option Int := none
deriving DecidableEq, Repr

/-- What the directory reports of a region. -/
structure AddressReport where
  name : String
  /-- Blank if unknown. -/
  clusterAddress : String
  /-- Blank if unknown. -/
  localAddress : String
  online : Bool
deriving DecidableEq, Repr

namespace AddressEntry

/-- The endpoint to tell players, by preference, or else the other one. -/
def resolve (e : AddressEntry) (p : Preference) : Option Endpoint :=
  let onHost := e.localAddress.bind Endpoint.parse
  let inCluster := e.clusterAddress.bind Endpoint.parse
  match p with
  | .host => onHost.or inCluster
  | .cluster => inCluster.or onHost

/-- The entry after a report at a time. -/
def update (e : AddressEntry) (r : AddressReport) (now : Int) : AddressEntry where
  clusterAddress := (Text.nonBlank? r.clusterAddress).or e.clusterAddress
  localAddress := (Text.nonBlank? r.localAddress).or e.localAddress
  online := r.online
  lastChecked := some now

end AddressEntry

/-- What is known of the addresses of all regions. -/
structure AddressBook where
  preference : Preference
  entries : Table String AddressEntry := ∅
  fallbacks : Table String Endpoint := ∅
deriving DecidableEq

namespace AddressBook

/-- The key under which a region is listed. -/
def key (name : String) : String := Text.fold (Text.trim name)

/-- What the directory puts in front of the names of regions. -/
def servicePrefix : String := "world-"

/-- The address on the host that a region's port gives. -/
def hostAddress (port : Int32) : Option String :=
  if 0 < port then some ("127.0.0.1:" ++ Numeral.ofInt port.toInt) else none

/-- A book that knows the ports of the realm. -/
def seeded (p : Preference) (w : Realm) : AddressBook where
  preference := p
  entries := Table.ofList <| w.regions.map fun r =>
    (key r.name, { localAddress := r.tcpPort.bind hostAddress, online := true })

/-- Add a fallback for a region. -/
def withFallback (b : AddressBook) (region : String) (e : Endpoint) : AddressBook :=
  { b with fallbacks := b.fallbacks.insert (key region) e }

/-- What is known of a region. -/
def get? (b : AddressBook) (region : String) : Option AddressEntry := b.entries.get? (key region)

/-- The endpoint of a region, if one is known. -/
def resolve (b : AddressBook) (region : String) : Option Endpoint :=
  ((b.get? region).bind (·.resolve b.preference)).or (b.fallbacks.get? (key region))

/-- The name without what the directory puts in front, if that is there. -/
def withoutPrefix? (k : String) : Option String :=
  if servicePrefix.toList.isPrefixOf k.toList then
    some (String.ofList (k.toList.drop servicePrefix.toList.length))
  else none

/-- The key of the entry that a report is about: its own, unless only the entry without the
directory's prefix is known. -/
def reportedKey (entries : Table String AddressEntry) (name : String) : String :=
  let k := key name
  if entries.contains k then k
  else
    match withoutPrefix? k with
    | some bare => if entries.contains bare then bare else k
    | none => k

/-- Take in one report. -/
def record (now : Int) (entries : Table String AddressEntry) (r : AddressReport) :
    Table String AddressEntry :=
  let k := reportedKey entries r.name
  entries.insert k (((entries.get? k).getD {}).update r now)

/-- Take in reports, one after the other. -/
def apply (b : AddressBook) (reports : List AddressReport) (now : Int) : AddressBook :=
  { b with entries := reports.foldl (record now) b.entries }

end AddressBook

end TileRealm
