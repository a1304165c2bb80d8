import TileRealm.Text.Numeral

/-!
# Kinds of messages

Every frame names the kind of its message by one byte.  `Kind.ofByte?` and `Kind.toByte` are
inverse to each other.
-/

namespace TileRealm

/-- What a frame is about. -/
inductive Kind where
  | moveRequest
  | positionUpdate
  | handoff
  | clientConfig
  | ghostZoneEnter
  | ghostZoneLeave
  | ghostZoneInfo
  | deadZones
  | playersSnapshot
  | playerInfo
  | provisionalConnection
  | moveState
deriving DecidableEq, Repr

namespace Kind

/-- Every kind, in the order of its byte. -/
def all : List Kind :=
  [moveRequest, positionUpdate, handoff, clientConfig, ghostZoneEnter, ghostZoneLeave,
    ghostZoneInfo, deadZones, playersSnapshot, playerInfo, provisionalConnection, moveState]

/-- The byte of a kind. -/
def toByte : Kind → UInt8
  | moveRequest => 0
  | positionUpdate => 1
  | handoff => 2
  | clientConfig => 3
  | ghostZoneEnter => 4
  | ghostZoneLeave => 5
  | ghostZoneInfo => 6
  | deadZones => 7
  | playersSnapshot => 8
  | playerInfo => 9
  | provisionalConnection => 10
  | moveState => 11

/-- The kind that a byte stands for. -/
def ofByte? (b : UInt8) : Option Kind := all[b.toNat]?

/-- The name of a kind. -/
def name : Kind → String
  | moveRequest => "MoveRequest"
  | positionUpdate => "PositionUpdate"
  | handoff => "Handoff"
  | clientConfig => "ClientConfig"
  | ghostZoneEnter => "GhostZoneEnter"
  | ghostZoneLeave => "GhostZoneLeave"
  | ghostZoneInfo => "GhostZoneInfo"
  | deadZones => "DeadZones"
  | playersSnapshot => "PlayersSnapshot"
  | playerInfo => "PlayerInfo"
  | provisionalConnection => "ProvisionalConnection"
  | moveState => "MoveState"

@[simp] theorem ofByte?_toByte (k : Kind) : ofByte? k.toByte = some k := by cases k <;> rfl

theorem ofByte?_eq_some_iff {b : UInt8} {k : Kind} : ofByte? b = some k ↔ b = k.toByte := by
  constructor
  · intro h
    have hb : b.toNat < 12 := by
      unfold ofByte? at h
      exact (List.getElem?_eq_some_iff.1 h).1
    apply UInt8.toNat_inj.1
    revert h
    unfold ofByte?
    generalize b.toNat = n at hb ⊢
    intro h
    match n, hb with
    | 0, _ | 1, _ | 2, _ | 3, _ | 4, _ | 5, _ | 6, _ | 7, _ | 8, _ | 9, _ | 10, _ | 11, _ =>
      simp only [all] at h
      cases h
      rfl
  · rintro rfl
    exact ofByte?_toByte k

end Kind

/-- Why bytes are no message, or a message has no bytes. -/
inductive CodecError where
  /-- The payload has more bytes than a frame can announce. -/
  | payloadTooLarge (size : Nat)
  /-- A field goes on after the last byte. -/
  | truncated (offset needed : Nat)
  /-- A length or a count is negative. -/
  | negativeLength (length : Int32)
  | invalidUtf8
  | incompleteHeader
  /-- The byte stands for no kind. -/
  | unknownType (byte : UInt8)
  /-- The kind is not one that this side receives. -/
  | unexpectedType (kind : Kind)
deriving DecidableEq, Repr

/-- The error in words. -/
def CodecError.message : CodecError → String
  | .payloadTooLarge n => "payload of " ++ Numeral.ofNat n ++ " bytes exceeds frame limit"
  | .truncated offset needed =>
    "truncated payload: needed " ++ Numeral.ofNat needed ++ " bytes at offset " ++
      Numeral.ofNat offset
  | .negativeLength n => "negative string length " ++ Numeral.ofInt n.toInt
  | .invalidUtf8 => "invalid utf-8 string"
  | .incompleteHeader => "incomplete frame header"
  | .unknownType b => "unknown packet type " ++ Numeral.ofNat b.toNat
  | .unexpectedType k => "unexpected packet type " ++ k.name

end TileRealm
