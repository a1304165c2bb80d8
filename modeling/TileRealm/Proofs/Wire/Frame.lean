import TileRealm.Wire.Frame

/-!
# Frames that are written

A header stands in three bytes or in five (`Header.StandsIn`), and it is read from them whatever
follows.  A payload fits into a frame up to the length that two bytes can announce
(`Frame.exists_encode_eq_append`, `Frame.encode_eq_error`), and what is read from a written frame is
its header and its payload, whatever follows it (`Frame.decode_append`).
-/

namespace TileRealm

namespace Header

theorem isExtended_eq_false_iff {b : UInt8} : isExtended b = false ↔ b ≠ 255 := by
  simp [isExtended, extendedMarker]

theorem ofParts_short {b : UInt8} (h : b ≠ 255) (version kindByte : UInt8)
    (extension : Option (UInt8 × UInt8)) :
    ofParts version kindByte b extension = .ok ⟨version, kindByte, b.toNat⟩ := by
  rw [ofParts.eq_def, isExtended_eq_false_iff.2 h]
  rfl

theorem ofParts_extended (version kindByte hi lo : UInt8) :
    ofParts version kindByte extendedMarker (some (hi, lo)) =
      .ok ⟨version, kindByte, extendedLength hi lo⟩ := rfl

/-- The bytes that a header can be read from: its length is one byte other than the marker, or any
two behind the marker, however small the number is that they make. -/
inductive StandsIn : Header → Bytes → Prop where
  | short (version kindByte : UInt8) {lengthByte : UInt8} (h : lengthByte ≠ extendedMarker) :
      StandsIn ⟨version, kindByte, lengthByte.toNat⟩ [version, kindByte, lengthByte]
  | extended (version kindByte hi lo : UInt8) :
      StandsIn ⟨version, kindByte, extendedLength hi lo⟩
        [version, kindByte, extendedMarker, hi, lo]

section EncodedLength

variable {version kindByte : UInt8} {length : Nat}

theorem encodedLength_of_lt (h : length < 255) : encodedLength ⟨version, kindByte, length⟩ = 3 :=
  if_pos h

theorem encodedLength_of_le (h : 255 ≤ length) : encodedLength ⟨version, kindByte, length⟩ = 5 :=
  if_neg (Nat.not_lt.2 h)

end EncodedLength

theorem StandsIn.headerLength_le {header : Header} {head : Bytes} (h : header.StandsIn head) :
    headerLength ≤ head.length := by
  cases h with
  | short => exact Nat.le_refl 3
  | extended => exact Nat.le_add_right 3 2

end Header

namespace Frame

variable {kind : Kind} {payload b : Bytes}

/-! ### Reading headers -/

theorem decodeHeader_append {header : Header} {head : Bytes} (h : header.StandsIn head)
    (rest : Bytes) : decodeHeader (head ++ rest) = .ok header := by
  cases h with
  | short version kindByte h => exact Header.ofParts_short h ..
  | extended => exact Header.ofParts_extended ..

theorem next_append_of_standsIn {header : Header} {head : Bytes} (h : header.StandsIn head)
    (rest : Bytes) : next (head ++ rest) = nextPayload header rest := by
  cases h with
  | short version kindByte h =>
    show (if Header.isExtended _ then _ else _) = _
    rw [Header.isExtended_eq_false_iff.2 h]
    rfl
  | extended => rfl

section Decode

variable {header : Header}

/-- A frame is read if the payload that its header announces is there. -/
theorem decode_of_split? {rest : Bytes} (h : decodeHeader b = .ok header)
    (hsplit : Payload.split? header.length (b.drop header.encodedLength) = some (payload, rest)) :
    decode b = .ok (⟨header, payload⟩, header.encodedLength + header.length) := by
  rw [decode, h]
  dsimp only [bind, Except.bind]
  rw [hsplit]
  rfl

theorem decode_eq_error_of_split? (h : decodeHeader b = .ok header)
    (hsplit : Payload.split? header.length (b.drop header.encodedLength) = none) :
    decode b = .error (.truncated header.encodedLength header.length) := by
  rw [decode, h]
  dsimp only [bind, Except.bind]
  rw [hsplit]
  rfl

/-- A frame is read if its header has the size that is written for its length, and its payload has
the length that the header announces. -/
theorem decode_append {head : Bytes} (h : header.StandsIn head)
    (hsize : head.length = header.encodedLength) (hlen : payload.length = header.length)
    (rest : Bytes) :
    decode (head ++ payload ++ rest) = .ok (⟨header, payload⟩, (head ++ payload).length) := by
  have hheader : decodeHeader (head ++ payload ++ rest) = .ok header := by
    rw [List.append_assoc]
    exact decodeHeader_append h _
  have hsplit : Payload.split? header.length
      ((head ++ payload ++ rest).drop header.encodedLength) = some (payload, rest) := by
    rw [List.append_assoc, ← hsize, List.drop_left]
    exact Payload.split?_eq_some_iff.2 ⟨rfl, hlen⟩
  rw [decode_of_split? hheader hsplit, List.length_append, hsize, hlen]

end Decode

/-! ### Lengths in bytes -/

theorem toNat_toUInt8_of_lt {n : Nat} (h : n < 256) : n.toUInt8.toNat = n :=
  UInt8.toNat_ofNat'.trans (Nat.mod_eq_of_lt h)

theorem extendedLength_bytes {n : Nat} (h : n ≤ maxPayloadLength) :
    extendedLength (n / 256).toUInt8 n.toUInt8 = n := by
  rw [maxPayloadLength] at h
  rw [extendedLength, toNat_toUInt8_of_lt (by omega),
    show n.toUInt8.toNat = n % 256 from UInt8.toNat_ofNat']
  omega

/-! ### Writing and reading -/

/-- The header that is written for a payload. -/
def writtenHeader (kind : Kind) (payload : Bytes) : Header :=
  ⟨protocolVersion, kind.toByte, payload.length⟩

theorem encode_eq_error (kind : Kind) (h : maxPayloadLength < payload.length) :
    encode kind payload = .error (.payloadTooLarge payload.length) := by
  rw [encode, if_pos h]

/-- A payload that fits has a frame, which is its header, in no more bytes than it needs, and the
payload. -/
theorem exists_encode_eq_append (kind : Kind) (h : payload.length ≤ maxPayloadLength) :
    ∃ head, encode kind payload = .ok (head ++ payload) ∧
      (writtenHeader kind payload).StandsIn head ∧
      head.length = (writtenHeader kind payload).encodedLength := by
  rw [encode, if_neg (Nat.not_lt.2 h)]
  by_cases hshort : payload.length < extendedMarker.toNat
  · have hlt : payload.length < 255 := hshort
    have htoNat := toNat_toUInt8_of_lt (n := payload.length) (by omega)
    have hne : payload.length.toUInt8 ≠ extendedMarker := fun heq => by
      rw [heq] at htoNat
      exact absurd htoNat.symm (Nat.ne_of_lt hlt)
    have hstands := Header.StandsIn.short protocolVersion kind.toByte hne
    rw [htoNat] at hstands
    exact ⟨_, if_pos hshort, hstands, (if_pos hshort).symm⟩
  · have hstands := Header.StandsIn.extended protocolVersion kind.toByte
      (payload.length / 256).toUInt8 payload.length.toUInt8
    rw [extendedLength_bytes h] at hstands
    exact ⟨_, if_neg hshort, hstands, (if_neg hshort).symm⟩

/-- A payload that fits is read back from its frame, whatever follows the frame. -/
theorem exists_encode_eq_ok (kind : Kind) (h : payload.length ≤ maxPayloadLength) :
    ∃ b, encode kind payload = .ok b ∧
      ∀ rest, decode (b ++ rest) = .ok (⟨writtenHeader kind payload, payload⟩, b.length) := by
  obtain ⟨head, hencode, hstands, hlen⟩ := exists_encode_eq_append kind h
  exact ⟨_, hencode, decode_append hstands hlen rfl⟩

theorem exists_encode_eq_ok_iff (kind : Kind) :
    (∃ b, encode kind payload = .ok b) ↔ payload.length ≤ maxPayloadLength := by
  constructor
  · rintro ⟨b, hb⟩
    refine Nat.not_lt.1 fun hlt => ?_
    rw [encode_eq_error kind hlt] at hb
    cases hb
  · intro h
    obtain ⟨b, hb, -⟩ := exists_encode_eq_ok kind h
    exact ⟨b, hb⟩

theorem decode_of_encode_eq_ok (h : encode kind payload = .ok b) (rest : Bytes) :
    decode (b ++ rest) = .ok (⟨writtenHeader kind payload, payload⟩, b.length) := by
  obtain ⟨b', hb', hread⟩ := exists_encode_eq_ok kind ((exists_encode_eq_ok_iff kind).1 ⟨b, h⟩)
  cases h.symm.trans hb'
  exact hread rest

end Frame

end TileRealm
