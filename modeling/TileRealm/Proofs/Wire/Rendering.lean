import TileRealm.Proofs.Wire.Frame
import TileRealm.Proofs.Wire.Reading
import TileRealm.Wire.ServerMessage

/-!
# Renderings of messages to players

The bytes that stand for a message to a player (`ServerMessage.Renders`) are those that are written
for it, but that any byte other than 0 says that a listed player walks.  Reading accepts exactly
the renderings of messages whose texts and lists can be counted, with anything behind them
(`ServerMessage.takes_read`, `ServerMessage.decode_eq_ok_iff`).
-/

namespace TileRealm

namespace Payload

section Sequences

variable {α : Type} {R : α → Bytes → Prop} {as : List α} {b : Bytes}

theorem sequence_eq_iff {f : α → Bytes} :
    Sequence (fun a x => x = f a) as b ↔ b = as.flatMap f := by
  induction as generalizing b with
  | nil => exact sequence_nil_iff
  | cons a as ih =>
    rw [sequence_cons_iff, List.flatMap_cons]
    simp only [ih]
    constructor
    · rintro ⟨_, _, rfl, rfl, rfl⟩
      rfl
    · rintro rfl
      exact ⟨_, _, rfl, rfl, rfl⟩

theorem sequence_and_iff {P : α → Prop} :
    Sequence (fun a x => P a ∧ R a x) as b ↔ (∀ a ∈ as, P a) ∧ Sequence R as b := by
  induction as generalizing b with
  | nil => simp [sequence_nil_iff]
  | cons a as ih =>
    simp only [sequence_cons_iff, ih, List.forall_mem_cons]
    constructor
    · rintro ⟨x, y, ⟨ha, hx⟩, ⟨has, hy⟩, rfl⟩
      exact ⟨⟨ha, has⟩, x, y, hx, hy, rfl⟩
    · rintro ⟨⟨ha, has⟩, x, y, hx, hy, rfl⟩
      exact ⟨x, y, ⟨ha, hx⟩, ⟨has, hy⟩, rfl⟩

/-- If each thing is written as one of the things that stand for it, so is the sequence. -/
theorem Sequence.of_forall {f : α → Bytes} (h : ∀ a, R a (f a)) (as : List α) :
    Sequence R as (as.flatMap f) := by
  induction as with
  | nil => exact .nil
  | cons a as ih => exact .cons (h a) ih

theorem Sequence.length_eq {f : α → Bytes} (h : Sequence R as b)
    (hR : ∀ a x, R a x → x.length = (f a).length) : b.length = (as.flatMap f).length := by
  induction h with
  | nil => rfl
  | cons head tail ih =>
    rw [List.flatMap_cons, List.length_append, List.length_append, hR _ _ head, ih]

end Sequences

end Payload

namespace ServerMessage

open Payload Reading

/-! ### Renderings -/

/-- Whether all texts and lists of a message are short enough to be counted by 32 bits. -/
def Measured : ServerMessage → Prop
  | handoff region host _ _ => region.utf8ByteSize < countLimit ∧ host.utf8ByteSize < countLimit
  | ghostZoneEnter region host _ =>
    region.utf8ByteSize < countLimit ∧ host.utf8ByteSize < countLimit
  | ghostZoneLeave region host _ =>
    region.utf8ByteSize < countLimit ∧ host.utf8ByteSize < countLimit
  | deadZones tiles => tiles.length < countLimit
  | playersSnapshot _ players =>
    players.length < countLimit ∧ ∀ p ∈ players, p.username.utf8ByteSize < countLimit
  | _ => True

/-- Bytes that stand for a listed player: a player walks if the mark is not 0. -/
def RendersPlayer (p : Player) (b : Bytes) : Prop :=
  ∃ mark, (mark != 0) = p.moving ∧
    b = int32 p.id ++ tileBytes p.pos ++ byte mark ++ text p.username

/-- Bytes that stand for a message. -/
def Renders : ServerMessage → Bytes → Prop
  | playersSnapshot myId players, b =>
    ∃ entries, Sequence RendersPlayer players entries ∧
      b = int32 myId ++ count players.length ++ entries
  | m, b => b = m.payload

/-- The kinds that only players send. -/
def foreignKinds : List Kind := [.moveRequest, .clientConfig, .provisionalConnection, .moveState]

theorem rendersPlayer_playerBytes (p : Player) : RendersPlayer p (playerBytes p) := by
  refine ⟨if p.moving then 1 else 0, ?_, rfl⟩
  cases p.moving <;> rfl

theorem renders_payload (m : ServerMessage) : m.Renders m.payload := by
  cases m with
  | playersSnapshot myId players =>
    exact ⟨_, .of_forall rendersPlayer_playerBytes players, rfl⟩
  | _ => rfl

theorem RendersPlayer.length_eq {p : Player} {b : Bytes} (h : RendersPlayer p b) :
    b.length = (playerBytes p).length := by
  obtain ⟨mark, -, rfl⟩ := h
  rw [playerBytes, List.length_append, List.length_append, List.length_append, List.length_append]
  rfl

theorem Renders.length_eq {m : ServerMessage} {b : Bytes} (h : m.Renders b) :
    b.length = m.payload.length := by
  cases m with
  | playersSnapshot myId players =>
    obtain ⟨entries, hentries, rfl⟩ := h
    have hlen := hentries.length_eq fun p x => RendersPlayer.length_eq
    rw [payload, List.length_append, List.length_append, List.length_append, List.length_append,
      hlen]
  | _ => rw [h]

/-! ### Parts of messages -/

theorem takes_readTile : readTile.Takes fun t b => b = tileBytes t := by
  refine (takes_readInt32.bind fun x => takes_readInt32.map (Tile.mk x)).congr fun t b => ?_
  constructor
  · rintro ⟨x, _, _, rfl, ⟨y, rfl, rfl⟩, rfl⟩
    rfl
  · rintro rfl
    exact ⟨t.x, _, _, rfl, ⟨t.y, rfl, rfl⟩, rfl⟩

theorem takes_readBounds : readBounds.Takes fun r b => b = boundsBytes r := by
  refine (takes_readInt32.bind fun minX => takes_readInt32.bind fun maxX =>
    takes_readInt32.bind fun minY => takes_readInt32.map (Bounds.mk minX maxX minY)).congr
      fun r b => ?_
  constructor
  · rintro ⟨minX, _, _, rfl, ⟨maxX, _, _, rfl, ⟨minY, _, _, rfl, ⟨maxY, rfl, rfl⟩, rfl⟩, rfl⟩, rfl⟩
    simp [boundsBytes]
  · rintro rfl
    exact ⟨r.minX, _, _, rfl, ⟨r.maxX, _, _, rfl, ⟨r.minY, _, _, rfl, ⟨r.maxY, rfl, rfl⟩, rfl⟩,
      rfl⟩, by simp [boundsBytes]⟩

theorem takes_readPlayer :
    readPlayer.Takes fun p b => p.username.utf8ByteSize < countLimit ∧ RendersPlayer p b := by
  refine (takes_readInt32.bind fun id => takes_readTile.bind fun pos =>
    takes_readFlag.bind fun moving => takes_readText.map (Player.mk id pos moving)).congr
      fun p b => ?_
  constructor
  · rintro ⟨id, _, _, rfl, ⟨pos, _, _, rfl, ⟨_, _, _, ⟨mark, rfl, rfl⟩, ⟨username, ⟨hlt, rfl⟩, rfl⟩,
      rfl⟩, rfl⟩, rfl⟩
    exact ⟨hlt, mark, rfl, by simp⟩
  · rintro ⟨hlt, mark, hmark, rfl⟩
    exact ⟨p.id, _, _, rfl, ⟨p.pos, _, _, rfl, ⟨p.moving, _, _, ⟨mark, hmark, rfl⟩, ⟨p.username,
      ⟨hlt, rfl⟩, rfl⟩, rfl⟩, rfl⟩, by simp⟩

/-- A message that only tells of a neighbouring region. -/
theorem takes_hint (hint : String → String → Int32 → ServerMessage) :
    (return hint (← readText) (← readText) (← readInt32) : Reading ServerMessage).Takes fun m b =>
      ∃ region host port, (region.utf8ByteSize < countLimit ∧ host.utf8ByteSize < countLimit) ∧
        b = neighborBytes region host port ∧ m = hint region host port := by
  refine (takes_readText.bind fun region => takes_readText.bind fun host =>
    takes_readInt32.map (hint region host)).congr fun m b => ?_
  constructor
  · rintro ⟨region, _, _, ⟨hr, rfl⟩, ⟨host, _, _, ⟨hh, rfl⟩, ⟨port, rfl, rfl⟩, rfl⟩, rfl⟩
    exact ⟨region, host, port, ⟨hr, hh⟩, by simp [neighborBytes], rfl⟩
  · rintro ⟨region, host, port, ⟨hr, hh⟩, rfl, rfl⟩
    exact ⟨region, _, _, ⟨hr, rfl⟩, ⟨host, _, _, ⟨hh, rfl⟩, ⟨port, rfl, rfl⟩, rfl⟩,
      by simp [neighborBytes]⟩

/-! ### Messages -/

theorem takes_read_handoff :
    (read .handoff).Takes fun m b => m.kind = .handoff ∧ m.Measured ∧ m.Renders b := by
  refine (takes_readText.bind fun region => takes_readText.bind fun host =>
    takes_readInt32.bind fun port => takes_readTile.map (handoff region host port)).congr
      fun m b => ?_
  constructor
  · rintro ⟨region, _, _, ⟨hr, rfl⟩, ⟨host, _, _, ⟨hh, rfl⟩, ⟨port, _, _, rfl, ⟨target, rfl, rfl⟩,
      rfl⟩, rfl⟩, rfl⟩
    exact ⟨rfl, ⟨hr, hh⟩, by simp [Renders, payload, neighborBytes]⟩
  · rintro ⟨hm, hlt, hb⟩
    cases m <;> cases hm
    exact ⟨_, _, _, ⟨hlt.1, rfl⟩, ⟨_, _, _, ⟨hlt.2, rfl⟩, ⟨_, _, _, rfl, ⟨_, rfl, rfl⟩, rfl⟩, rfl⟩,
      hb.trans (by simp [payload, neighborBytes])⟩

theorem takes_read_deadZones :
    (read .deadZones).Takes fun m b => m.kind = .deadZones ∧ m.Measured ∧ m.Renders b := by
  refine (takes_readCount.bind fun n => (takes_readMany takes_readTile n).map deadZones).congr
    fun m b => ?_
  simp only [sequence_eq_iff]
  constructor
  · rintro ⟨_, _, _, ⟨hlt, rfl⟩, ⟨tiles, ⟨rfl, rfl⟩, rfl⟩, rfl⟩
    exact ⟨rfl, hlt, rfl⟩
  · rintro ⟨hm, hlt, hb⟩
    cases m <;> cases hm
    exact ⟨_, _, _, ⟨hlt, rfl⟩, ⟨_, ⟨rfl, rfl⟩, rfl⟩, hb⟩

theorem takes_read_playersSnapshot :
    (read .playersSnapshot).Takes fun m b =>
      m.kind = .playersSnapshot ∧ m.Measured ∧ m.Renders b := by
  refine (takes_readInt32.bind fun myId => takes_readCount.bind fun n =>
    (takes_readMany takes_readPlayer n).map (playersSnapshot myId)).congr fun m b => ?_
  simp only [sequence_and_iff]
  constructor
  · rintro ⟨myId, _, _, rfl, ⟨_, _, _, ⟨hlt, rfl⟩, ⟨players, ⟨rfl, hnames, hentries⟩, rfl⟩, rfl⟩,
      rfl⟩
    exact ⟨rfl, ⟨hlt, hnames⟩, _, hentries, by simp⟩
  · rintro ⟨hm, hlt, hb⟩
    cases m <;> cases hm
    obtain ⟨entries, hentries, rfl⟩ := hb
    exact ⟨_, _, _, rfl, ⟨_, _, _, ⟨hlt.1, rfl⟩, ⟨_, ⟨rfl, hlt.2, hentries⟩, rfl⟩, rfl⟩, by simp⟩

/-- For each kind that the region sends, reading takes exactly the renderings of its messages. -/
theorem takes_read {k : Kind} (hk : k ∉ foreignKinds) :
    (read k).Takes fun m b => m.kind = k ∧ m.Measured ∧ m.Renders b := by
  cases k with
  | handoff => exact takes_read_handoff
  | deadZones => exact takes_read_deadZones
  | playersSnapshot => exact takes_read_playersSnapshot
  | positionUpdate =>
    refine (takes_readTile.map positionUpdate).congr fun m b => ?_
    constructor
    · rintro ⟨pos, rfl, rfl⟩
      exact ⟨rfl, trivial, rfl⟩
    · rintro ⟨hm, -, hb⟩
      cases m <;> cases hm
      exact ⟨_, hb, rfl⟩
  | playerInfo =>
    refine (takes_readInt32.map playerInfo).congr fun m b => ?_
    constructor
    · rintro ⟨id, rfl, rfl⟩
      exact ⟨rfl, trivial, rfl⟩
    · rintro ⟨hm, -, hb⟩
      cases m <;> cases hm
      exact ⟨_, hb, rfl⟩
  | ghostZoneEnter =>
    refine (takes_hint ghostZoneEnter).congr fun m b => ?_
    constructor
    · rintro ⟨region, host, port, hlt, rfl, rfl⟩
      exact ⟨rfl, hlt, rfl⟩
    · rintro ⟨hm, hlt, hb⟩
      cases m <;> cases hm
      exact ⟨_, _, _, hlt, hb, rfl⟩
  | ghostZoneLeave =>
    refine (takes_hint ghostZoneLeave).congr fun m b => ?_
    constructor
    · rintro ⟨region, host, port, hlt, rfl, rfl⟩
      exact ⟨rfl, hlt, rfl⟩
    · rintro ⟨hm, hlt, hb⟩
      cases m <;> cases hm
      exact ⟨_, _, _, hlt, hb, rfl⟩
  | ghostZoneInfo =>
    refine (takes_readInt32.bind fun width => takes_readBounds.map (ghostZoneInfo width)).congr
      fun m b => ?_
    constructor
    · rintro ⟨width, _, _, rfl, ⟨bounds, rfl, rfl⟩, rfl⟩
      exact ⟨rfl, trivial, rfl⟩
    · rintro ⟨hm, -, hb⟩
      cases m <;> cases hm
      exact ⟨_, _, _, rfl, ⟨_, rfl, rfl⟩, hb⟩
  | _ => exact absurd (by decide) hk

/-! ### Sizes -/

@[simp] theorem length_text (s : String) : (text s).length = 4 + s.utf8ByteSize := by
  rw [text, List.length_append, count, length_int32, Text.length_utf8]

theorem length_le_length_flatMap {α : Type} {f : α → Bytes} (hf : ∀ a, 0 < (f a).length)
    (as : List α) : as.length ≤ (as.flatMap f).length := by
  induction as with
  | nil => exact Nat.le_refl 0
  | cons a as ih =>
    have := hf a
    rw [List.flatMap_cons, List.length_append, List.length_cons]
    omega

/-- What fits into a frame can be counted. -/
theorem measured_of_length_payload_le {m : ServerMessage}
    (h : m.payload.length ≤ maxPayloadLength) : m.Measured := by
  have hlimit : maxPayloadLength < countLimit := by decide
  cases m with
  | handoff region host port target =>
    simp only [payload, neighborBytes, List.length_append, length_text] at h
    exact ⟨by omega, by omega⟩
  | ghostZoneEnter region host port =>
    simp only [payload, neighborBytes, List.length_append, length_text] at h
    exact ⟨by omega, by omega⟩
  | ghostZoneLeave region host port =>
    simp only [payload, neighborBytes, List.length_append, length_text] at h
    exact ⟨by omega, by omega⟩
  | deadZones tiles =>
    have htiles := length_le_length_flatMap (f := tileBytes) (fun t => Nat.zero_lt_succ 7) tiles
    simp only [payload, List.length_append] at h
    show tiles.length < countLimit
    omega
  | playersSnapshot myId players =>
    have hplayers := length_le_length_flatMap (f := playerBytes)
      (fun p => Nat.zero_lt_succ _) players
    simp only [payload, List.length_append] at h
    refine ⟨by omega, fun p hp => ?_⟩
    have hentry : (playerBytes p).length ≤ (players.flatMap playerBytes).length :=
      (List.sublist_flatten_of_mem (List.mem_map_of_mem hp)).length_le
    rw [playerBytes, List.length_append, length_text] at hentry
    omega
  | _ => trivial

/-! ### Reading frames -/

variable {f : Frame} {m : ServerMessage} {k : Kind}

theorem kind_not_mem_foreignKinds (m : ServerMessage) : m.kind ∉ foreignKinds := by
  cases m <;> simp [kind, foreignKinds]

theorem read_of_mem_foreignKinds (h : k ∈ foreignKinds) :
    read k = throw (.unexpectedType k) := by
  simp only [foreignKinds, List.mem_cons, List.not_mem_nil, or_false] at h
  rcases h with rfl | rfl | rfl | rfl <;> rfl

theorem decode_of_kindByte (h : f.header.kindByte = k.toByte) :
    decode f = ((read k).at (.start f.payload)).1 := by
  rw [decode, h, Kind.ofByte?_toByte]

theorem decode_of_mem_foreignKinds (h : f.header.kindByte = k.toByte) (hk : k ∈ foreignKinds) :
    decode f = .error (.unexpectedType k) := by
  rw [decode_of_kindByte h, read_of_mem_foreignKinds hk]
  rfl

theorem isMalformed_of_decode {e : CodecError} (h : f.header.kindByte = k.toByte)
    (hk : k ∉ foreignKinds) (he : decode f = .error e) : e.IsMalformed := by
  rw [decode_of_kindByte h] at he
  exact (takes_read hk).isMalformed (Prod.ext he rfl)

/-- Of the frames of all kinds just the renderings of messages are read. -/
theorem decode_eq_ok_iff :
    decode f = .ok m ↔ f.header.kindByte = m.kind.toByte ∧ m.Measured ∧
      ∃ b rest, m.Renders b ∧ f.payload = b ++ rest := by
  constructor
  · intro h
    cases hbyte : Kind.ofByte? f.header.kindByte with
    | none =>
      rw [decode, hbyte] at h
      cases h
    | some k =>
      have hk := Kind.ofByte?_eq_some_iff.1 hbyte
      by_cases hforeign : k ∈ foreignKinds
      · rw [decode_of_mem_foreignKinds hk hforeign] at h
        cases h
      · rw [decode_of_kindByte hk] at h
        obtain ⟨b, rest, ⟨rfl, hm, hb⟩, hp⟩ := ((takes_read hforeign).fst_at_eq_ok_iff 0).1 h
        exact ⟨hk, hm, b, rest, hb, hp⟩
  · rintro ⟨hk, hm, b, rest, hb, hp⟩
    rw [decode_of_kindByte hk]
    exact ((takes_read (kind_not_mem_foreignKinds m)).fst_at_eq_ok_iff 0).2
      ⟨b, rest, ⟨rfl, hm, hb⟩, hp⟩

theorem ofByte?_eq_none_iff {b : UInt8} : Kind.ofByte? b = none ↔ 11 < b.toNat :=
  List.getElem?_eq_none_iff

theorem decode_eq_unknownType_iff {b : UInt8} :
    decode f = .error (.unknownType b) ↔ b = f.header.kindByte ∧ 11 < b.toNat := by
  cases hbyte : Kind.ofByte? f.header.kindByte with
  | none =>
    rw [decode, hbyte]
    constructor
    · intro h
      cases h
      exact ⟨rfl, ofByte?_eq_none_iff.1 hbyte⟩
    · rintro ⟨rfl, -⟩
      rfl
  | some k =>
    have hk := Kind.ofByte?_eq_some_iff.1 hbyte
    refine iff_of_false (fun h => ?_) ?_
    · by_cases hforeign : k ∈ foreignKinds
      · rw [decode_of_mem_foreignKinds hk hforeign] at h
        cases h
      · exact isMalformed_of_decode hk hforeign h
    · rintro ⟨rfl, hlt⟩
      rw [ofByte?_eq_none_iff.2 hlt] at hbyte
      cases hbyte

theorem decode_eq_unexpectedType_iff :
    decode f = .error (.unexpectedType k) ↔
      f.header.kindByte = k.toByte ∧ k ∈ foreignKinds := by
  constructor
  · intro h
    cases hbyte : Kind.ofByte? f.header.kindByte with
    | none =>
      rw [decode, hbyte] at h
      cases h
    | some k' =>
      have hk := Kind.ofByte?_eq_some_iff.1 hbyte
      by_cases hforeign : k' ∈ foreignKinds
      · rw [decode_of_mem_foreignKinds hk hforeign] at h
        cases h
        exact ⟨hk, hforeign⟩
      · exact (isMalformed_of_decode hk hforeign h).elim
  · rintro ⟨hk, hforeign⟩
    exact decode_of_mem_foreignKinds hk hforeign

theorem mem_foreignKinds_iff : k ∈ foreignKinds ↔ k.toByte ∈ [(0 : UInt8), 3, 10, 11] := by
  cases k <;> decide

/-- What fits into a frame is read back from there. -/
theorem decode_written (h : m.payload.length ≤ maxPayloadLength) :
    decode ⟨Frame.writtenHeader m.kind m.payload, m.payload⟩ = .ok m :=
  decode_eq_ok_iff.2 ⟨rfl, measured_of_length_payload_le h, m.payload, [], renders_payload m,
    (List.append_nil _).symm⟩

/-- Reading accepts exactly the renderings of messages, with anything behind them; all else is an
error, which names the kind only if that is unknown or one that only players send.  A message that
was read fits into a frame if its bytes did, and is read back from there. -/
theorem decode_accepts_renderings (f : Frame) :
    (∀ m, decode f = .ok m ↔ f.header.kindByte = m.kind.toByte ∧ m.Measured ∧
      ∃ b rest, m.Renders b ∧ f.payload = b ++ rest) ∧
    ((∃ e, decode f = .error e) ↔ ¬∃ m : ServerMessage, f.header.kindByte = m.kind.toByte ∧
      m.Measured ∧ ∃ b rest, m.Renders b ∧ f.payload = b ++ rest) ∧
    (∀ b, decode f = .error (.unknownType b) ↔ b = f.header.kindByte ∧ 11 < b.toNat) ∧
    (∀ k, decode f = .error (.unexpectedType k) ↔
      f.header.kindByte = k.toByte ∧ f.header.kindByte ∈ [(0 : UInt8), 3, 10, 11]) ∧
    (∀ m, decode f = .ok m → f.payload.length ≤ 65535 →
      m.payload.length ≤ f.payload.length ∧
        ∃ b f', m.encode = .ok b ∧ Frame.decode b = .ok (f', b.length) ∧ f'.payload = m.payload ∧
          decode f' = .ok m) := by
  refine ⟨fun m => decode_eq_ok_iff, ?_, fun b => decode_eq_unknownType_iff, fun k => ?_,
    fun m hm hlen => ?_⟩
  · simp only [← decode_eq_ok_iff]
    cases decode f with
    | ok m => simp
    | error e => simp
  · rw [decode_eq_unexpectedType_iff, mem_foreignKinds_iff]
    exact and_congr_right fun hk => by rw [hk]
  · obtain ⟨-, -, b, rest, hb, hp⟩ := decode_eq_ok_iff.1 hm
    have hle : m.payload.length ≤ f.payload.length := by
      rw [hp, List.length_append, hb.length_eq]
      exact Nat.le_add_right _ _
    have hfits : m.payload.length ≤ maxPayloadLength := Nat.le_trans hle hlen
    obtain ⟨b', hb', hread⟩ := Frame.exists_encode_eq_ok m.kind hfits
    refine ⟨hle, b', _, hb', ?_, rfl, decode_written hfits⟩
    rw [← hread [], List.append_nil]

/-- A snapshot whose only player walks by the mark 7, with a byte behind it, is read, and written
again with the mark 1; with a negative number of players it is an error. -/
theorem decode_accepts_renderings_marked :
    let f : Frame := ⟨⟨1, 8, 28⟩, [0, 0, 0, 5, 0, 0, 0, 1, 0, 0, 0, 5, 0, 0, 0, 3, 0, 0, 0, 4, 7,
      0, 0, 0, 2, 97, 108, 99]⟩
    let g : Frame := ⟨⟨1, 8, 8⟩, [0, 0, 0, 5, 255, 255, 255, 255]⟩
    let m : ServerMessage := .playersSnapshot 5 [⟨5, ⟨3, 4⟩, true, "al"⟩]
    decode f = .ok m ∧ f.payload.length ≤ 65535 ∧
      (m.Measured ∧ ∃ b rest, m.Renders b ∧ f.payload = b ++ rest) ∧
      m.payload.length ≤ f.payload.length ∧
      (∃ b f', m.encode = .ok b ∧ b.drop 3 ≠ f.payload.take 27 ∧
        Frame.decode b = .ok (f', b.length) ∧ decode f' = .ok m) ∧
      decode g = .error (.negativeLength (-1)) ∧
      ¬∃ m : ServerMessage, g.header.kindByte = m.kind.toByte ∧ m.Measured ∧
        ∃ b rest, m.Renders b ∧ g.payload = b ++ rest := by
  intro f g m
  obtain ⟨hok, -, -, -, hagain⟩ := decode_accepts_renderings f
  obtain ⟨-, herror, -⟩ := decode_accepts_renderings g
  have hf : decode f = .ok m := by
    have hsome : (decode f).toOption = some m := by decide +kernel
    cases h : decode f with
    | ok m' => rw [h] at hsome; exact congrArg _ (Option.some.inj hsome)
    | error e => rw [h] at hsome; cases hsome
  have hg : decode g = .error (.negativeLength (-1)) := by rfl
  have hlen : f.payload.length ≤ 65535 := by decide
  obtain ⟨-, hm, hrender⟩ := (hok m).1 hf
  obtain ⟨hle, b, f', hb, hread, -, hdecode⟩ := hagain m hf hlen
  have hmark : m.encode.toOption.map (·.drop 3) ≠ some (f.payload.take 27) := by decide
  rw [hb] at hmark
  exact ⟨hf, hlen, ⟨hm, hrender⟩, hle, ⟨b, f', hb, fun h => hmark (congrArg some h), hread, hdecode⟩,
    hg, herror.1 ⟨_, hg⟩⟩

end ServerMessage

end TileRealm
