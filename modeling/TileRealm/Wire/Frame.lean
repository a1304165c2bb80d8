import TileRealm.Wire.Payload

/-!
# Frames

A frame is a header and a payload.  The header is the protocol version, the kind of the message
and the length of the payload in one byte; the byte 255 announces that the length follows in two
more.  `Frame.decode` reads a frame from the front of a buffer, `Frame.next` from a stream.
-/

namespace TileRealm

/-- The protocol version written into every frame. -/
def protocolVersion : UInt8 := 1

/-- The length byte that announces a length of two more bytes. -/
def extendedMarker : UInt8 := 255

/-- The bytes that every header has. -/
def headerLength : Nat := 3

/-- The bytes of a length behind the marker. -/
def extensionLength : Nat := 2

/-- The longest payload that a frame can carry. -/
def maxPayloadLength : Nat := 65535

/-- What a header announces. -/
structure Header where
  version : UInt8
  kindByte : UInt8
  length : Nat
deriving DecidableEq, Repr

/-- A frame as received. -/
structure Frame where
  header : Header
  payload : Bytes
deriving DecidableEq, Repr

/-- A length in two bytes, the more significant one first. -/
def extendedLength (hi lo : UInt8) : Nat := hi.toNat * 256 + lo.toNat

namespace Header

/-- Whether a length byte announces that the length follows. -/
def isExtended (lengthByte : UInt8) : Bool := lengthByte == extendedMarker

/-- The header of three bytes and the two after them, if those were there. -/
def ofParts (version kindByte lengthByte : UInt8) (extension : Option (UInt8 × UInt8)) :
    Except CodecError Header :=
  if isExtended lengthByte then
    match extension with
    | some (hi, lo) => .ok ⟨version, kindByte, extendedLength hi lo⟩
    | none => .error .incompleteHeader
  else .ok ⟨version, kindByte, lengthByte.toNat⟩

/-- The bytes of the header that is written for such a length. -/
def encodedLength (h : Header) : Nat :=
  if h.length < extendedMarker.toNat then headerLength else headerLength + extensionLength

end Header

namespace Frame

/-- Wrap a payload in a frame. -/
def encode (kind : Kind) (payload : Bytes) : Except CodecError Bytes :=
  let n := payload.length
  if n > maxPayloadLength then .error (.payloadTooLarge n)
  else if n < extendedMarker.toNat then
    .ok (protocolVersion :: kind.toByte :: n.toUInt8 :: payload)
  else
    .ok (protocolVersion :: kind.toByte :: extendedMarker :: (n / 256).toUInt8 :: n.toUInt8 ::
      payload)

/-- Read the header at the front of a buffer. -/
def decodeHeader : Bytes → Except CodecError Header
  | version :: kindByte :: lengthByte :: rest =>
    Header.ofParts version kindByte lengthByte <|
      match rest with
      | hi :: lo :: _ => some (hi, lo)
      | _ => none
  | _ => .error .incompleteHeader

/-- Read the frame at the front of a buffer and count the bytes it takes.  The payload is looked
for behind a header of the size that is written for its length. -/
def decode (b : Bytes) : Except CodecError (Frame × Nat) := do
  let header ← decodeHeader b
  let start := header.encodedLength
  match Payload.split? header.length (b.drop start) with
  | some (payload, _) => return (⟨header, payload⟩, start + header.length)
  | none => throw (.truncated start header.length)

/-- What the front of a stream holds. -/
inductive Arrival where
  /-- A whole frame, and the bytes behind it. -/
  | frame (frame : Frame) (rest : Bytes)
  /-- Fewer bytes than any header has. -/
  | noHeader
  /-- The beginning of a frame. -/
  | cut
deriving DecidableEq, Repr

/-- The payload behind a header, from a stream. -/
def nextPayload (header : Header) (b : Bytes) : Arrival :=
  match Payload.split? header.length b with
  | some (payload, rest) => .frame ⟨header, payload⟩ rest
  | none => .cut

/-- Read the next frame of a stream.  The payload stands directly behind the header that was
read. -/
def next : Bytes → Arrival
  | version :: kindByte :: lengthByte :: rest =>
    if Header.isExtended lengthByte then
      match rest with
      | hi :: lo :: rest => nextPayload ⟨version, kindByte, extendedLength hi lo⟩ rest
      | _ => .cut
    else nextPayload ⟨version, kindByte, lengthByte.toNat⟩ rest
  | _ => .noHeader

theorem length_nextPayload_lt {header : Header} {b : Bytes} {f : Frame} {rest : Bytes}
    (h : nextPayload header b = .frame f rest) : rest.length ≤ b.length := by
  unfold nextPayload at h
  split at h
  next payload rest' hs =>
    injection h with _ h
    obtain ⟨rfl, _⟩ := Payload.split?_eq_some_iff.1 hs
    simp [← h]
  next => cases h

/-- A frame takes at least a header from the stream. -/
theorem length_next_lt {b : Bytes} {f : Frame} {rest : Bytes} (h : next b = .frame f rest) :
    rest.length < b.length := by
  unfold next at h
  split at h
  next version kindByte lengthByte tail =>
    split at h
    · split at h
      next hi lo tail' =>
        have := length_nextPayload_lt h
        simp only [List.length_cons]
        omega
      next => cases h
    · have := length_nextPayload_lt h
      simp only [List.length_cons]
      omega
  next => cases h

/-- How a stream ended. -/
inductive StreamEnd where
  /-- No frame had begun; fewer bytes than a header has count as none. -/
  | closed
  /-- The stream ended inside a frame. -/
  | cut
deriving DecidableEq, Repr

/-- Every whole frame of a stream, and the bytes behind the last one. -/
def whole (b : Bytes) : List Frame × Bytes :=
  match h : next b with
  | .frame f rest =>
    have := length_next_lt h
    let (frames, left) := whole rest
    (f :: frames, left)
  | _ => ([], b)
termination_by b.length

/-- Read a stream to its end. -/
def readAll (b : Bytes) : List Frame × StreamEnd :=
  let (frames, left) := whole b
  (frames, if next left = .noHeader then .closed else .cut)

end Frame

end TileRealm
