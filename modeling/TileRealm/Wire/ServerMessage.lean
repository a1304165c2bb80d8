import TileRealm.Wire.Frame
import TileRealm.Grid.Bounds

/-!
# Messages to players

What the region sends to a player's client: each message has a payload, a frame, and a reading
that takes it back from a payload.
-/

namespace TileRealm

/-- A player as listed for the others. -/
structure Player where
  id : Int32
  pos : Tile
  moving : Bool
  username : String
deriving DecidableEq, Repr

/-- What a region tells a player's client. -/
inductive ServerMessage where
  /-- Where the player is. -/
  | positionUpdate (pos : Tile)
  /-- The player goes on in another region; without a known address the host is empty and the
  port is 0. -/
  | handoff (region host : String) (port : Int32) (target : Tile)
  /-- The player came near a neighbouring region. -/
  | ghostZoneEnter (region host : String) (port : Int32)
  /-- The player is no longer near a neighbouring region. -/
  | ghostZoneLeave (region host : String) (port : Int32)
  /-- The width of ghost zones and the bounds of the region. -/
  | ghostZoneInfo (width : Int32) (bounds : Bounds)
  /-- Tiles that cannot be entered. -/
  | deadZones (tiles : List Tile)
  /-- Everyone in the region, and the id of the one it is sent to. -/
  | playersSnapshot (myId : Int32) (players : List Player)
  /-- The player's own id. -/
  | playerInfo (id : Int32)
deriving DecidableEq, Repr

namespace ServerMessage

/-- The kind of a message. -/
def kind : ServerMessage → Kind
  | positionUpdate _ => .positionUpdate
  | handoff .. => .handoff
  | ghostZoneEnter .. => .ghostZoneEnter
  | ghostZoneLeave .. => .ghostZoneLeave
  | ghostZoneInfo .. => .ghostZoneInfo
  | deadZones _ => .deadZones
  | playersSnapshot .. => .playersSnapshot
  | playerInfo _ => .playerInfo

/-! ### Writing -/

/-- A tile in a payload. -/
def tileBytes (t : Tile) : Bytes := Payload.int32 t.x ++ Payload.int32 t.y

/-- Bounds in a payload. -/
def boundsBytes (b : Bounds) : Bytes :=
  Payload.int32 b.minX ++ Payload.int32 b.maxX ++ Payload.int32 b.minY ++ Payload.int32 b.maxY

/-- A listed player in a payload. -/
def playerBytes (p : Player) : Bytes :=
  Payload.int32 p.id ++ tileBytes p.pos ++ Payload.flag p.moving ++ Payload.text p.username

/-- A neighbouring region in a payload. -/
def neighborBytes (region host : String) (port : Int32) : Bytes :=
  Payload.text region ++ Payload.text host ++ Payload.int32 port

/-- The payload of a message. -/
def payload : ServerMessage → Bytes
  | positionUpdate pos => tileBytes pos
  | handoff region host port target => neighborBytes region host port ++ tileBytes target
  | ghostZoneEnter region host port => neighborBytes region host port
  | ghostZoneLeave region host port => neighborBytes region host port
  | ghostZoneInfo width bounds => Payload.int32 width ++ boundsBytes bounds
  | deadZones tiles => Payload.count tiles.length ++ tiles.flatMap tileBytes
  | playersSnapshot myId players =>
    Payload.int32 myId ++ Payload.count players.length ++ players.flatMap playerBytes
  | playerInfo id => Payload.int32 id

/-- The frame of a message. -/
def encode (m : ServerMessage) : Except CodecError Bytes := Frame.encode m.kind m.payload

/-! ### Reading -/

/-- Take a tile. -/
def readTile : Reading Tile := return ⟨← Payload.readInt32, ← Payload.readInt32⟩

/-- Take bounds. -/
def readBounds : Reading Bounds :=
  return ⟨← Payload.readInt32, ← Payload.readInt32, ← Payload.readInt32, ← Payload.readInt32⟩

/-- Take a listed player. -/
def readPlayer : Reading Player :=
  return ⟨← Payload.readInt32, ← readTile, ← Payload.readFlag, ← Payload.readText⟩

/-- Take the payload of a kind. -/
def read : Kind → Reading ServerMessage
  | .positionUpdate => return positionUpdate (← readTile)
  | .handoff =>
    return handoff (← Payload.readText) (← Payload.readText) (← Payload.readInt32) (← readTile)
  | .ghostZoneEnter =>
    return ghostZoneEnter (← Payload.readText) (← Payload.readText) (← Payload.readInt32)
  | .ghostZoneLeave =>
    return ghostZoneLeave (← Payload.readText) (← Payload.readText) (← Payload.readInt32)
  | .ghostZoneInfo => return ghostZoneInfo (← Payload.readInt32) (← readBounds)
  | .deadZones => do
    let n ← Payload.readCount
    return deadZones (← Payload.readMany readTile n)
  | .playersSnapshot => do
    let myId ← Payload.readInt32
    let n ← Payload.readCount
    return playersSnapshot myId (← Payload.readMany readPlayer n)
  | .playerInfo => return playerInfo (← Payload.readInt32)
  | k => throw (.unexpectedType k)

/-- The message of a frame. -/
def decode (f : Frame) : Except CodecError ServerMessage :=
  match Kind.ofByte? f.header.kindByte with
  | some k => ((read k).at (.start f.payload)).1
  | none => .error (.unknownType f.header.kindByte)

end ServerMessage

end TileRealm
