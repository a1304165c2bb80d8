import TileRealm.Proofs.Wire.Request

/-!
# Messages that are written and read back

Every message of either side whose payload fits into a frame is read back from its frame, whatever
follows the frame, and a message whose payload does not fit has none (`Frame.messages_read_back`).
-/

namespace TileRealm

namespace ClientMessage

/-- What fits into a frame is read back. -/
theorem decode_payload {m : ClientMessage} (h : m.payload.length ≤ maxPayloadLength) :
    decode m.kind m.payload = .ok m :=
  decode_eq_ok_iff.2 ⟨rfl, leads_payload (measured_of_length_payload_le h)⟩

end ClientMessage

namespace Frame

/-- A message has a frame exactly when its payload fits into one, and from the frame it is read
back, whatever follows. -/
theorem messages_read_back :
    (∀ m : ServerMessage,
      ((∃ b, m.encode = .ok b) ↔ m.payload.length ≤ 65535) ∧
      (65535 < m.payload.length → m.encode = .error (.payloadTooLarge m.payload.length)) ∧
      ∀ b rest, m.encode = .ok b → ∃ f, Frame.decode (b ++ rest) = .ok (f, b.length) ∧
        f.header.version = 1 ∧ f.header.kindByte = m.kind.toByte ∧
          ServerMessage.decode f = .ok m) ∧
    (∀ m : ClientMessage,
      ((∃ b, m.encode = .ok b) ↔ m.payload.length ≤ 65535) ∧
      (65535 < m.payload.length → m.encode = .error (.payloadTooLarge m.payload.length)) ∧
      ∀ b rest, m.encode = .ok b → ∃ f, Frame.decode (b ++ rest) = .ok (f, b.length) ∧
        f.header.version = 1 ∧ Kind.ofByte? f.header.kindByte = some m.kind ∧
          ClientMessage.decode m.kind f.payload = .ok m) := by
  refine ⟨fun m => ⟨exists_encode_eq_ok_iff m.kind, encode_eq_error m.kind, fun b rest hb => ?_⟩,
    fun m => ⟨exists_encode_eq_ok_iff m.kind, encode_eq_error m.kind, fun b rest hb => ?_⟩⟩
  · have hlen : m.payload.length ≤ maxPayloadLength := (exists_encode_eq_ok_iff m.kind).1 ⟨b, hb⟩
    refine ⟨_, decode_of_encode_eq_ok hb rest, rfl, rfl, ?_⟩
    exact ServerMessage.decode_written hlen
  · have hlen : m.payload.length ≤ maxPayloadLength := (exists_encode_eq_ok_iff m.kind).1 ⟨b, hb⟩
    refine ⟨_, decode_of_encode_eq_ok hb rest, rfl, Kind.ofByte?_toByte m.kind, ?_⟩
    exact ClientMessage.decode_payload hlen

/-- A list of tiles that needs the longer header, one that fits into no frame, and a name with
letters of two bytes. -/
theorem messages_read_back_long :
    let zones : ServerMessage := .deadZones (List.replicate 32 ⟨-1, 7⟩)
    let desert : ServerMessage := .deadZones (List.replicate 8192 ⟨0, 0⟩)
    let config : ClientMessage := .clientConfig 2 (some "Ñandú")
    (∃ b f, zones.encode = .ok b ∧ b.take 5 = [1, 7, 255, 1, 4] ∧
      Frame.decode (b ++ [9, 9]) = .ok (f, b.length) ∧ f.header.version = 1 ∧
        f.header.kindByte = 7 ∧ ServerMessage.decode f = .ok zones) ∧
    (65535 < desert.payload.length ∧ desert.encode = .error (.payloadTooLarge 65540)) ∧
    ∃ b f, config.encode = .ok b ∧ Frame.decode (b ++ [0]) = .ok (f, b.length) ∧
      f.header.version = 1 ∧ ClientMessage.decode .clientConfig f.payload = .ok config := by
  intro zones desert config
  obtain ⟨hserver, hclient⟩ := messages_read_back
  refine ⟨?_, ?_, ?_⟩
  · obtain ⟨hfits, -, hread⟩ := hserver zones
    obtain ⟨b, hb⟩ := hfits.2 (by decide +kernel)
    obtain ⟨f, hf, hversion, hkind, hdecode⟩ := hread b [9, 9] hb
    have hstart : zones.encode.toOption.map (·.take 5) = some [1, 7, 255, 1, 4] := by
      decide +kernel
    rw [hb] at hstart
    exact ⟨b, f, hb, Option.some.inj hstart, hf, hversion, hkind, hdecode⟩
  · have hlen : desert.payload.length = 65540 := by
      rw [ServerMessage.payload, List.length_append, List.length_flatMap, List.map_replicate,
        List.sum_replicate_nat]
      rfl
    have hlt : 65535 < desert.payload.length := by omega
    exact ⟨hlt, hlen ▸ (hserver desert).2.1 hlt⟩
  · obtain ⟨hfits, -, hread⟩ := hclient config
    obtain ⟨b, hb⟩ := hfits.2 (by decide)
    obtain ⟨f, hf, hversion, -, hdecode⟩ := hread b [0] hb
    exact ⟨b, f, hb, hf, hversion, hdecode⟩

end Frame

end TileRealm
