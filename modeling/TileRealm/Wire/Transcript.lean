import TileRealm.Wire.ClientMessage
import TileRealm.Wire.ServerMessage

/-!
# Transcripts

The bytes that a player's client receives for a sequence of messages, and the messages it reads
from them.  A message whose payload does not fit into a frame leaves no trace.
-/

namespace TileRealm

namespace Transcript

/-- The bytes written for messages, one frame after the other. -/
def bytes (ms : List ServerMessage) : Bytes :=
  ms.flatMap fun m =>
    match m.encode with
    | .ok b => b
    | .error _ => []

/-- The messages in received bytes. -/
def messages (b : Bytes) : List (Except CodecError ServerMessage) :=
  (Frame.readAll b).1.map ServerMessage.decode

/-- The bytes of a client's messages, one frame after the other. -/
def request (ms : List ClientMessage) : Bytes :=
  ms.flatMap fun m =>
    match m.encode with
    | .ok b => b
    | .error _ => []

end Transcript

end TileRealm
