import TileRealm.Address.Book
import TileRealm.Json.Record
import TileRealm.Json.Writer

/-!
# Directory documents

What the directory service sends and is sent: the reports on all regions, the request to look up
a place, and the answer to it.
-/

namespace TileRealm

/-- What the directory says of a region. -/
structure RegionReport where
  name : String := ""
  online : Bool := false
  clusterTcp : String := ""
  localTcp : String := ""
  minX : Int32 := 0
  maxX : Int32 := 0
  minY : Int32 := 0
  maxY : Int32 := 0
deriving DecidableEq, Repr

namespace RegionReport

/-- The part of a report that concerns addresses. -/
def addresses (r : RegionReport) : AddressReport := ⟨r.name, r.clusterTcp, r.localTcp, r.online⟩

/-- The members of a report. -/
def members (r : RegionReport) : List (String × Json.Scalar) :=
  [("name", .text r.name), ("online", .flag r.online), ("clusterTcp", .text r.clusterTcp),
    ("localTcp", .text r.localTcp), ("minX", .number r.minX.toInt), ("maxX", .number r.maxX.toInt),
    ("minY", .number r.minY.toInt), ("maxY", .number r.maxY.toInt)]

/-- The report that a record holds. -/
def ofJson? (v : Json) : Option RegionReport := do
  let [name, online, clusterTcp, localTcp, minX, maxX, minY, maxY] ←
    v.fields? [["name"], ["online"], ["clusterTcp"], ["localTcp"], ["minX"], ["maxX"], ["minY"],
      ["maxY"]] | none
  let name ← Json.optional Json.text? "" name
  let online ← Json.optional Json.bool? false online
  let clusterTcp ← Json.optional Json.textOrNull? "" clusterTcp
  let localTcp ← Json.optional Json.textOrNull? "" localTcp
  let minX ← Json.optional Json.int32? 0 minX
  let maxX ← Json.optional Json.int32? 0 maxX
  let minY ← Json.optional Json.int32? 0 minY
  let maxY ← Json.optional Json.int32? 0 maxY
  return ⟨name, online, clusterTcp, localTcp, minX, maxX, minY, maxY⟩

/-- The document of a report. -/
def write (r : RegionReport) : String := Json.writeObject r.members

/-- The report in a document. -/
def parse (text : String) : Option RegionReport := (Json.parse text).bind ofJson?

/-- The reports in a document. -/
def parseList (text : String) : Option (List RegionReport) :=
  (Json.parse text).bind (Json.list? ofJson?)

/-- The document of reports. -/
def writeList (rs : List RegionReport) : String := Json.writeArray (rs.map members)

end RegionReport

/-- A place to look up. -/
structure LookupRequest where
  regionName : String
  x : Int32
  y : Int32
  ghostZoneWidth : Int32
deriving DecidableEq, Repr

namespace LookupRequest

/-- The members of a request. -/
def members (r : LookupRequest) : List (String × Json.Scalar) :=
  [("regionName", .text r.regionName), ("x", .number r.x.toInt), ("y", .number r.y.toInt),
    ("ghostZoneWidth", .number r.ghostZoneWidth.toInt)]

/-- The document of a request. -/
def write (r : LookupRequest) : String := Json.writeObject r.members

/-- The request that a record holds. -/
def ofJson? (v : Json) : Option LookupRequest := do
  let [regionName, x, y, ghostZoneWidth] ←
    v.fields? [["regionName"], ["x"], ["y"], ["ghostZoneWidth"]] | none
  let regionName ← Json.required Json.text? regionName
  let x ← Json.required Json.int32? x
  let y ← Json.required Json.int32? y
  let ghostZoneWidth ← Json.required Json.int32? ghostZoneWidth
  return ⟨regionName, x, y, ghostZoneWidth⟩

/-- The request in a document. -/
def parse (text : String) : Option LookupRequest := (Json.parse text).bind ofJson?

end LookupRequest

/-- Where a place is. -/
structure LookupAnswer where
  currentRegion : String := ""
  online : Bool := false
  clusterTcp : String := ""
  localTcp : String := ""
  nextRegion : String := ""
deriving DecidableEq, Repr

namespace LookupAnswer

/-- The members of an answer. -/
def members (r : LookupAnswer) : List (String × Json.Scalar) :=
  [("currentRegion", .text r.currentRegion), ("online", .flag r.online),
    ("clusterTcp", .text r.clusterTcp), ("localTcp", .text r.localTcp),
    ("nextRegion", .text r.nextRegion)]

/-- The document of an answer. -/
def write (r : LookupAnswer) : String := Json.writeObject r.members

/-- The answer that a record holds. -/
def ofJson? (v : Json) : Option LookupAnswer := do
  let [currentRegion, online, clusterTcp, localTcp, nextRegion] ←
    v.fields? [["currentRegion"], ["online"], ["clusterTcp"], ["localTcp"], ["nextRegion"]] | none
  let currentRegion ← Json.optional Json.textOrNull? "" currentRegion
  let online ← Json.optional Json.bool? false online
  let clusterTcp ← Json.optional Json.textOrNull? "" clusterTcp
  let localTcp ← Json.optional Json.textOrNull? "" localTcp
  let nextRegion ← Json.optional Json.textOrNull? "" nextRegion
  return ⟨currentRegion, online, clusterTcp, localTcp, nextRegion⟩

/-- The answer in a document. -/
def parse (text : String) : Option LookupAnswer := (Json.parse text).bind ofJson?

end LookupAnswer

end TileRealm
