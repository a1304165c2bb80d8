import TileRealm.Proofs.Wire.Rendering
import TileRealm.Wire.ClientMessage

/-!
# Requests of clients

A payload leads to a message if it begins with bytes that stand for the message
(`ClientMessage.Leads`).  What follows is not looked at, but behind a width without a name there is
nothing.  Reading accepts exactly the payloads that lead to a message of their kind
(`ClientMessage.decode_eq_ok_iff`), which are those that are not at fault
(`ClientMessage.IsFaulty`).
-/

namespace TileRealm

namespace Payload

/-- Every four bytes are a number. -/
theorem exists_int32_append_iff {b : Bytes} : (∃ n rest, b = int32 n ++ rest) ↔ 4 ≤ b.length := by
  constructor
  · rintro ⟨n, rest, rfl⟩
    rw [List.length_append, length_int32]
    exact Nat.le_add_right _ _
  · intro h
    match b, h with
    | b₃ :: b₂ :: b₁ :: b₀ :: rest, _ =>
      exact ⟨toInt32 b₃ b₂ b₁ b₀, rest, by rw [int32_toInt32]; rfl⟩

/-- Bytes begin with a length, which is not negative, and as many bytes of UTF-8. -/
def BeginsWithText (b : Bytes) : Prop :=
  ∃ (n : Int32) (body rest : Bytes), b = int32 n ++ body ++ rest ∧ 0 ≤ n.toInt ∧
    body.length = n.toInt.toNat ∧ ∃ s, body = Text.utf8 s

theorem beginsWithText_iff {b : Bytes} :
    BeginsWithText b ↔ ∃ s rest, s.utf8ByteSize < countLimit ∧ b = text s ++ rest := by
  constructor
  · rintro ⟨n, _, rest, rfl, hn, hlen, s, rfl⟩
    rw [Text.length_utf8] at hlen
    have hlt := n.toInt_lt
    have hcount : Int32.ofNat s.utf8ByteSize = n := by
      refine Int32.toInt_inj.1 ?_
      rw [toInt_ofNat_of_lt_countLimit (by rw [countLimit]; omega)]
      omega
    exact ⟨s, rest, by rw [countLimit]; omega, by rw [text, count, hcount]⟩
  · rintro ⟨s, rest, hlt, rfl⟩
    have hsize := toInt_ofNat_of_lt_countLimit hlt
    exact ⟨Int32.ofNat s.utf8ByteSize, Text.utf8 s, rest, rfl, by omega,
      by rw [Text.length_utf8]; omega, s, rfl⟩

end Payload

namespace ClientMessage

open Payload Reading

/-! ### Renderings -/

/-- Whether the name in a message is short enough to be counted by 32 bits. -/
def Measured : ClientMessage → Prop
  | clientConfig _ (some name) => name.utf8ByteSize < countLimit
  | _ => True

/-- Bytes that stand for a message: those that are written for it, but that any mark other than 0
says that the player walks. -/
def Renders : ClientMessage → Bytes → Prop
  | moveState moving, b => ∃ mark, (mark != 0) = moving ∧ b = byte mark
  | m, b => b = m.payload

/-- Whether bytes behind a message are not looked at.  Behind a width without a name they would be
taken for the name. -/
def IsClosed : ClientMessage → Prop
  | clientConfig _ none => False
  | _ => True

/-- A payload leads to a message: it begins with bytes that stand for the message, and nothing behind
them is taken for a part of it. -/
def Leads (m : ClientMessage) (payload : Bytes) : Prop :=
  m.Measured ∧ ∃ b rest, m.Renders b ∧ payload = b ++ rest ∧ (m.IsClosed ∨ rest = [])

variable {k : Kind} {m : ClientMessage} {payload : Bytes}

theorem renders_payload (m : ClientMessage) : m.Renders m.payload := by
  cases m with
  | moveState moving =>
    refine ⟨if moving then 1 else 0, ?_, rfl⟩
    cases moving <;> rfl
  | _ => rfl

/-- What is written for a message leads to it. -/
theorem leads_payload (h : m.Measured) : m.Leads m.payload :=
  ⟨h, m.payload, [], renders_payload m, (List.append_nil _).symm, .inr rfl⟩

theorem measured_of_length_payload_le (h : m.payload.length ≤ maxPayloadLength) : m.Measured := by
  match m with
  | clientConfig width (some name) =>
    have hlimit : maxPayloadLength < countLimit := by decide
    rw [ClientMessage.payload, List.length_append, ServerMessage.length_text] at h
    rw [Measured]
    omega
  | clientConfig _ none | moveRequest .. | provisionalConnection | moveState _ => trivial

/-- Only of a configuration it matters what follows. -/
theorem leads_iff_of_ne (h : m.kind ≠ .clientConfig) :
    m.Leads payload ↔ ∃ b rest, m.Renders b ∧ payload = b ++ rest := by
  cases m with
  | clientConfig width username => exact absurd rfl h
  | _ => simp [Leads, Measured, IsClosed]

theorem leads_moveRequest_iff {x y : Int32} :
    (moveRequest x y).Leads payload ↔ ∃ rest, payload = int32 x ++ (int32 y ++ rest) := by
  simp [Leads, Measured, Renders, IsClosed, ClientMessage.payload]

theorem leads_clientConfig_none_iff {width : Int32} :
    (clientConfig width none).Leads payload ↔ payload = int32 width := by
  simp [Leads, Measured, Renders, IsClosed, ClientMessage.payload]

theorem leads_clientConfig_some_iff {width : Int32} {name : String} :
    (clientConfig width (some name)).Leads payload ↔ name.utf8ByteSize < countLimit ∧
      ∃ rest, payload = int32 width ++ (text name ++ rest) := by
  simp [Leads, Measured, Renders, IsClosed, ClientMessage.payload]

theorem leads_provisionalConnection : provisionalConnection.Leads payload :=
  ⟨trivial, [], payload, rfl, rfl, .inl trivial⟩

theorem leads_moveState_iff {moving : Bool} :
    (moveState moving).Leads payload ↔
      ∃ mark rest, (mark != 0) = moving ∧ payload = mark :: rest := by
  constructor
  · rintro ⟨-, _, rest, ⟨mark, hmark, rfl⟩, rfl, -⟩
    exact ⟨mark, rest, hmark, rfl⟩
  · rintro ⟨mark, rest, hmark, rfl⟩
    exact ⟨trivial, byte mark, rest, ⟨mark, hmark, rfl⟩, rfl, .inl trivial⟩

/-! ### Reading -/

/-- Of all messages but a configuration just the bytes that stand for them are taken. -/
theorem takes_read (hk : k ∈ ServerMessage.foreignKinds) (hne : k ≠ .clientConfig) :
    (read k).Takes fun m b => m.kind = k ∧ m.Renders b := by
  simp only [ServerMessage.foreignKinds, List.mem_cons, List.not_mem_nil, or_false] at hk
  rcases hk with rfl | rfl | rfl | rfl
  · refine (takes_readInt32.bind fun x => takes_readInt32.map (moveRequest x)).congr fun m b => ?_
    constructor
    · rintro ⟨x, _, _, rfl, ⟨y, rfl, rfl⟩, rfl⟩
      exact ⟨rfl, rfl⟩
    · rintro ⟨hm, hb⟩
      cases m <;> cases hm
      exact ⟨_, _, _, rfl, ⟨_, rfl, rfl⟩, hb⟩
  · exact absurd rfl hne
  · refine (Takes.pure provisionalConnection).congr fun m b => ?_
    constructor
    · rintro ⟨rfl, rfl⟩
      exact ⟨rfl, rfl⟩
    · rintro ⟨hm, hb⟩
      cases m <;> cases hm
      exact ⟨rfl, hb⟩
  · refine (takes_readFlag.map moveState).congr fun m b => ?_
    constructor
    · rintro ⟨moving, hb, rfl⟩
      exact ⟨rfl, hb⟩
    · rintro ⟨hm, hb⟩
      cases m <;> cases hm
      exact ⟨_, hb, rfl⟩

theorem isMalformed_of_decode_clientConfig {e : CodecError}
    (he : decode .clientConfig payload = .error e) : e.IsMalformed := by
  have hat : (read .clientConfig).at (.start payload) =
    (.error e, ((read .clientConfig).at (.start payload)).2) := Prod.ext he rfl
  rcases at_bind_eq_error hat with hwidth | ⟨width, c, -, hname⟩
  · exact takes_readInt32.isMalformed hwidth
  -- The name is read or not, as there are bytes left; neither way gives another error.
  · rcases at_bind_eq_error hname with hend | ⟨last, c', -, hrest⟩
    · cases hend
    · cases last with
      | true => cases hrest
      | false =>
        exact (takes_readText.map fun name => clientConfig width (some name)).isMalformed hrest

/-- The kinds that clients send have payloads, which are read or malformed. -/
theorem isMalformed_of_decode (hk : k ∈ ServerMessage.foreignKinds) {e : CodecError}
    (he : decode k payload = .error e) : e.IsMalformed := by
  by_cases hconfig : k = .clientConfig
  · exact isMalformed_of_decode_clientConfig (hconfig ▸ he)
  · exact (takes_read hk hconfig).isMalformed (Prod.ext he rfl)

/-- Frames of other kinds are not for this side. -/
theorem decode_of_not_mem (hk : k ∉ ServerMessage.foreignKinds) (payload : Bytes) :
    decode k payload = .error (.unexpectedType k) := by
  cases k with
  | moveRequest => exact absurd (by decide) hk
  | clientConfig => exact absurd (by decide) hk
  | provisionalConnection => exact absurd (by decide) hk
  | moveState => exact absurd (by decide) hk
  | _ => rfl

/-- A name is read if anything follows the width of ghost zones. -/
theorem read_clientConfig_at (width : Int32) (rest : Bytes) :
    (read .clientConfig).at ⟨0, int32 width ++ rest⟩ =
      (if rest.isEmpty then return clientConfig width none
        else return clientConfig width (some (← readText)) : Reading ClientMessage).at ⟨4, rest⟩ := by
  rw [read, at_bind, takes_readInt32.at_append rfl]
  rfl

/-- Whatever follows the width must be a name. -/
theorem decode_clientConfig_append (width : Int32) (rest : Bytes) :
    decode .clientConfig (int32 width ++ rest) = .ok m ↔
      rest = [] ∧ m = clientConfig width none ∨
        ∃ name more, name.utf8ByteSize < countLimit ∧ rest = text name ++ more ∧
          m = clientConfig width (some name) := by
  rw [decode, Cursor.start, read_clientConfig_at]
  cases rest with
  | nil =>
    constructor
    · intro h
      exact .inl ⟨rfl, (Except.ok.inj h).symm⟩
    · rintro (⟨-, rfl⟩ | ⟨name, more, -, hname, -⟩)
      · rfl
      · cases hname
  | cons c rest =>
    have htext := takes_readText.map fun name => clientConfig width (some name)
    refine (htext.fst_at_eq_ok_iff 4).trans ?_
    constructor
    · rintro ⟨_, more, ⟨name, ⟨hlt, rfl⟩, rfl⟩, hrest⟩
      exact .inr ⟨name, more, hlt, hrest, rfl⟩
    · rintro (⟨hrest, -⟩ | ⟨name, more, hlt, hrest, rfl⟩)
      · cases hrest
      · exact ⟨_, more, ⟨name, ⟨hlt, rfl⟩, rfl⟩, hrest⟩

theorem decode_clientConfig_eq_ok_iff :
    decode .clientConfig payload = .ok m ↔ m.kind = .clientConfig ∧ m.Leads payload := by
  constructor
  · intro h
    have hat : (read .clientConfig).at (.start payload) =
      (.ok m, ((read .clientConfig).at (.start payload)).2) := Prod.ext h rfl
    obtain ⟨width, c, hwidth, -⟩ := at_bind_eq_ok_iff.1 hat
    obtain ⟨_, rfl, hpayload, -⟩ := takes_readInt32.at_eq_ok_iff.1 hwidth
    rw [show payload = _ from hpayload] at h ⊢
    rcases (decode_clientConfig_append width c.rest).1 h with
      ⟨hrest, rfl⟩ | ⟨name, more, hlt, hrest, rfl⟩
    · rw [hrest, List.append_nil]
      exact ⟨rfl, leads_clientConfig_none_iff.2 rfl⟩
    · rw [hrest]
      exact ⟨rfl, leads_clientConfig_some_iff.2 ⟨hlt, more, rfl⟩⟩
  · rintro ⟨hm, hlead⟩
    cases m with
    | clientConfig width username =>
      cases username with
      | none =>
        rw [leads_clientConfig_none_iff.1 hlead, ← List.append_nil (int32 width)]
        exact (decode_clientConfig_append width []).2 (.inl ⟨rfl, rfl⟩)
      | some name =>
        obtain ⟨hlt, rest, rfl⟩ := leads_clientConfig_some_iff.1 hlead
        exact (decode_clientConfig_append width _).2 (.inr ⟨name, rest, hlt, rfl, rfl⟩)
    | _ => cases hm

theorem kind_mem_foreignKinds (m : ClientMessage) : m.kind ∈ ServerMessage.foreignKinds := by
  cases m <;> simp [kind, ServerMessage.foreignKinds]

/-- Of the payloads of all kinds just those are read that lead to a message. -/
theorem decode_eq_ok_iff : decode k payload = .ok m ↔ m.kind = k ∧ m.Leads payload := by
  by_cases hk : k ∈ ServerMessage.foreignKinds
  · by_cases hconfig : k = .clientConfig
    · rw [hconfig]
      exact decode_clientConfig_eq_ok_iff
    · refine ((takes_read hk hconfig).fst_at_eq_ok_iff 0).trans ?_
      constructor
      · rintro ⟨b, rest, ⟨rfl, hb⟩, hpayload⟩
        exact ⟨rfl, (leads_iff_of_ne hconfig).2 ⟨b, rest, hb, hpayload⟩⟩
      · rintro ⟨rfl, hlead⟩
        obtain ⟨b, rest, hb, hpayload⟩ := (leads_iff_of_ne hconfig).1 hlead
        exact ⟨b, rest, ⟨rfl, hb⟩, hpayload⟩
  · rw [decode_of_not_mem hk]
    exact iff_of_false nofun fun h => hk (h.1 ▸ kind_mem_foreignKinds m)

/-- A payload leads to one message of a kind at most. -/
theorem Leads.eq_of_kind_eq {m' : ClientMessage} (h : m.Leads payload) (h' : m'.Leads payload)
    (hkind : m'.kind = m.kind) : m' = m := by
  have hm := decode_eq_ok_iff.2 ⟨rfl, h⟩
  rw [decode_eq_ok_iff.2 ⟨hkind, h'⟩] at hm
  exact Except.ok.inj hm

/-! ### Payloads at fault -/

/-- The payloads of a kind that clients send from which no message is read. -/
def IsFaulty : Kind → Bytes → Prop
  | .moveRequest, payload => payload.length < 8
  | .moveState, payload => payload = []
  | .clientConfig, payload =>
    payload.length < 4 ∨ 4 < payload.length ∧ ¬ BeginsWithText (payload.drop 4)
  | _, _ => False

theorem Leads.not_isFaulty (h : m.Leads payload) : ¬ IsFaulty m.kind payload := by
  cases m with
  | moveRequest x y =>
    obtain ⟨rest, rfl⟩ := leads_moveRequest_iff.1 h
    simp only [kind, IsFaulty, List.length_append, length_int32]
    omega
  | clientConfig width username =>
    cases username with
    | none =>
      rw [leads_clientConfig_none_iff.1 h, kind, IsFaulty, length_int32]
      omega
    | some name =>
      obtain ⟨hlt, rest, rfl⟩ := leads_clientConfig_some_iff.1 h
      rintro (hshort | ⟨-, hname⟩)
      · rw [List.length_append, length_int32] at hshort
        omega
      · exact hname (beginsWithText_iff.2 ⟨name, rest, hlt, rfl⟩)
  | provisionalConnection => exact not_false
  | moveState moving =>
    obtain ⟨mark, rest, -, rfl⟩ := leads_moveState_iff.1 h
    exact List.cons_ne_nil mark rest

theorem exists_leads_of_not_isFaulty (hk : k ∈ ServerMessage.foreignKinds)
    (h : ¬ IsFaulty k payload) : ∃ m : ClientMessage, m.kind = k ∧ m.Leads payload := by
  simp only [ServerMessage.foreignKinds, List.mem_cons, List.not_mem_nil, or_false] at hk
  rcases hk with rfl | rfl | rfl | rfl
  · rw [IsFaulty] at h
    obtain ⟨x, rest, rfl⟩ := exists_int32_append_iff.2 (show 4 ≤ payload.length by omega)
    rw [List.length_append, length_int32] at h
    obtain ⟨y, rest, rfl⟩ := exists_int32_append_iff.2 (show 4 ≤ rest.length by omega)
    exact ⟨moveRequest x y, rfl, leads_moveRequest_iff.2 ⟨rest, rfl⟩⟩
  · rw [IsFaulty, not_or, not_and, Classical.not_not] at h
    obtain ⟨width, rest, rfl⟩ := exists_int32_append_iff.2 (show 4 ≤ payload.length by omega)
    cases rest with
    | nil =>
      rw [List.append_nil]
      exact ⟨clientConfig width none, rfl, leads_clientConfig_none_iff.2 rfl⟩
    | cons c rest =>
      obtain ⟨name, more, hlt, hrest⟩ := beginsWithText_iff.1 (h.2 (by simp))
      exact ⟨clientConfig width (some name), rfl,
        leads_clientConfig_some_iff.2 ⟨hlt, more, congrArg (int32 width ++ ·) hrest⟩⟩
  · exact ⟨provisionalConnection, rfl, leads_provisionalConnection⟩
  · cases payload with
    | nil => exact absurd rfl h
    | cons mark rest =>
      exact ⟨moveState (mark != 0), rfl, leads_moveState_iff.2 ⟨mark, rest, rfl, rfl⟩⟩

theorem mem_foreignKinds_of_isFaulty (h : IsFaulty k payload) :
    k ∈ ServerMessage.foreignKinds := by
  cases k with
  | moveRequest => decide
  | clientConfig => decide
  | moveState => decide
  | _ => exact h.elim

end ClientMessage

end TileRealm
