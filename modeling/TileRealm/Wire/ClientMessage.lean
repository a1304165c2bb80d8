import TileRealm.Wire.Frame

/-!
# Messages from players

What a player's client sends: each message has a payload, a frame, and a reading that takes it
back from a payload.  Bytes behind the last field are not looked at.
-/

namespace TileRealm

/-- What a player's client asks for. -/
inductive ClientMessage where
  /-- A wish to be on a tile. -/
  | moveRequest (x y : Int32)
  /-- The wished width of ghost zones and, if sent, the player's name. -/
  | clientConfig (ghostWidth : Int32) (username : Option String)
  | provisionalConnection
  /-- Whether the player walks. -/
  | moveState (moving : Bool)
deriving DecidableEq, Repr

namespace ClientMessage

/-- The kind of a message. -/
def kind : ClientMessage → Kind
  | moveRequest .. => .moveRequest
  | clientConfig .. => .clientConfig
  | provisionalConnection => .provisionalConnection
  | moveState _ => .moveState

/-- The payload of a message. -/
def payload : ClientMessage → Bytes
  | moveRequest x y => Payload.int32 x ++ Payload.int32 y
  | clientConfig width none => Payload.int32 width
  | clientConfig width (some name) => Payload.int32 width ++ Payload.text name
  | provisionalConnection => []
  | moveState moving => Payload.flag moving

/-- The frame of a message. -/
def encode (m : ClientMessage) : Except CodecError Bytes := Frame.encode m.kind m.payload

/-- Take the payload of a kind. -/
def read : Kind → Reading ClientMessage
  | .moveRequest => return moveRequest (← Payload.readInt32) (← Payload.readInt32)
  | .clientConfig => do
    let width ← Payload.readInt32
    if ← Payload.atEnd then return clientConfig width none
    return clientConfig width (some (← Payload.readText))
  | .provisionalConnection => return provisionalConnection
  | .moveState => return moveState (← Payload.readFlag)
  | k => throw (.unexpectedType k)

/-- The message of a payload. -/
def decode (k : Kind) (payload : Bytes) : Except CodecError ClientMessage :=
  ((read k).at (.start payload)).1

end ClientMessage

end TileRealm
