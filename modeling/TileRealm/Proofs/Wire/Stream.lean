import TileRealm.Player.World
import TileRealm.Proofs.Wire.Request

/-!
# Streams of frames

What a stream holds is known frame by frame: the bytes of a frame are the same frame whatever follows
them (`Frame.next_append`).  Only the payload of a frame that clients send can be at fault
(`Frame.fault?_eq_some_iff`), and other frames ask for nothing.
-/

namespace TileRealm

namespace Frame

/-! ### What frames ask for -/

/-- The message of a frame, if it is one that clients send and its payload can be read. -/
def request? (f : Frame) : Option ClientMessage :=
  (Kind.ofByte? f.header.kindByte).bind fun k => (ClientMessage.decode k f.payload).toOption

/-- What is wrong with the payload of a frame, if it is one that clients send. -/
def fault? (f : Frame) : Option CodecError :=
  (Kind.ofByte? f.header.kindByte).bind fun k =>
    match ClientMessage.decode k f.payload with
    | .error (.unexpectedType _) => none
    | .error e => some e
    | .ok _ => none

/-- Only a payload of a kind that clients send can be at fault, and it is if it cannot be read. -/
theorem fault?_eq_some_iff {f : Frame} {e : CodecError} : f.fault? = some e ↔
    ∃ k ∈ ServerMessage.foreignKinds, f.header.kindByte = k.toByte ∧
      ClientMessage.decode k f.payload = .error e := by
  rw [fault?]
  constructor
  · intro h
    obtain ⟨k, hk, he⟩ := Option.bind_eq_some_iff.1 h
    by_cases hmem : k ∈ ServerMessage.foreignKinds
    · refine ⟨k, hmem, Kind.ofByte?_eq_some_iff.1 hk, ?_⟩
      split at he
      next => cases he
      next e' _ hdecode => exact hdecode.trans (congrArg _ (Option.some.inj he))
      next => cases he
    · rw [ClientMessage.decode_of_not_mem hmem] at he
      cases he
  · rintro ⟨k, hmem, hk, he⟩
    have hmalformed := ClientMessage.isMalformed_of_decode hmem he
    rw [Kind.ofByte?_eq_some_iff.2 hk, Option.bind_some, he]
    cases e with
    | unexpectedType k' => exact hmalformed.elim
    | _ => rfl

/-- Frames of kinds that clients do not send are passed over. -/
theorem request?_eq_none_of_kindByte {f : Frame} (h : f.header.kindByte ∉ [(0 : UInt8), 3, 10, 11]) :
    f.request? = none ∧ f.fault? = none := by
  have hnot : ∀ k ∈ ServerMessage.foreignKinds, f.header.kindByte ≠ k.toByte := fun k hk heq =>
    h (heq ▸ ServerMessage.mem_foreignKinds_iff.1 hk)
  constructor
  · rw [request?]
    cases hbyte : Kind.ofByte? f.header.kindByte with
    | none => rfl
    | some k =>
      have hmem : k ∉ ServerMessage.foreignKinds := fun hk =>
        hnot k hk (Kind.ofByte?_eq_some_iff.1 hbyte)
      rw [Option.bind_some, ClientMessage.decode_of_not_mem hmem]
      rfl
  · refine Option.eq_none_iff_forall_ne_some.2 fun e he => ?_
    obtain ⟨k, hk, heq, -⟩ := fault?_eq_some_iff.1 he
    exact hnot k hk heq

/-- A frame is handled by handling what it asks for. -/
theorem route_eq (f : Frame) (w : World) (id : ConnectionId) :
    w.route id f.header.kindByte f.payload =
      match f.fault? with
      | some e => (w, some e)
      | none => (f.request?.elim w (w.dispatch id), none) := by
  rw [World.route, fault?, request?]
  cases Kind.ofByte? f.header.kindByte with
  | none => rfl
  | some k =>
    simp only [Option.bind_some]
    cases ClientMessage.decode k f.payload with
    | ok m => rfl
    | error e => cases e <;> rfl

/-! ### Frames of a stream -/

/-- The bytes of a frame are that frame, whatever follows. -/
theorem next_append {b : Bytes} {f : Frame} {rest : Bytes} (h : next b = .frame f rest) :
    ∃ front, b = front ++ rest ∧ ∀ c, next (front ++ c) = .frame f c := by
  have hpayload : ∀ {header : Header} {tail : Bytes}, nextPayload header tail = .frame f rest →
      ∃ payload, tail = payload ++ rest ∧ ∀ c, nextPayload header (payload ++ c) = .frame f c := by
    intro header tail h
    unfold nextPayload at h
    split at h
    next payload rest' hs =>
      cases h
      obtain ⟨htail, hlen⟩ := Payload.split?_eq_some_iff.1 hs
      refine ⟨payload, htail, fun c => ?_⟩
      rw [nextPayload, Payload.split?_eq_some_iff.2 ⟨rfl, hlen⟩]
    next => cases h
  unfold next at h
  split at h
  next version kindByte lengthByte tail =>
    split at h
    next hext =>
      split at h
      next hi lo tail' =>
        obtain ⟨payload, rfl, hnext⟩ := hpayload h
        refine ⟨version :: kindByte :: lengthByte :: hi :: lo :: payload, rfl, fun c => ?_⟩
        simp only [List.cons_append, next, hext, if_true]
        exact hnext c
      next => cases h
    next hext =>
      obtain ⟨payload, rfl, hnext⟩ := hpayload h
      refine ⟨version :: kindByte :: lengthByte :: payload, rfl, fun c => ?_⟩
      simp only [List.cons_append, next, hext]
      exact hnext c
  next => cases h

theorem whole_of_frame {b rest : Bytes} {f : Frame} (h : next b = .frame f rest) :
    whole b = (f :: (whole rest).1, (whole rest).2) := by
  rw [whole]
  split
  next f' rest' h' =>
    cases h.symm.trans h'
    rfl
  next hno => exact absurd h (hno f rest)

theorem whole_of_not_frame {b : Bytes} (h : ∀ f rest, next b ≠ .frame f rest) :
    whole b = ([], b) := by
  rw [whole]
  split
  next f rest h' => exact absurd h' (h f rest)
  next => rfl

theorem readAll_of_frame {b rest : Bytes} {f : Frame} (h : next b = .frame f rest) :
    readAll b = (f :: (readAll rest).1, (readAll rest).2) := by
  rw [readAll, whole_of_frame h, readAll]

theorem readAll_of_noHeader {b : Bytes} (h : next b = .noHeader) : readAll b = ([], .closed) := by
  have hwhole : whole b = ([], b) := whole_of_not_frame (by simp [h])
  simp [readAll, hwhole, h]

theorem readAll_of_cut {b : Bytes} (h : next b = .cut) : readAll b = ([], .cut) := by
  have hwhole : whole b = ([], b) := whole_of_not_frame (by simp [h])
  simp [readAll, hwhole, h]

/-- The frames of a stream before the first one with a payload at fault. -/
def proper (b : Bytes) : List Frame := (readAll b).1.takeWhile fun f => f.fault?.isNone

theorem proper_of_frame {b rest : Bytes} {f : Frame} (h : next b = .frame f rest) :
    proper b = if f.fault?.isNone then f :: proper rest else [] := by
  rw [proper, readAll_of_frame h, List.takeWhile_cons]
  rfl

end Frame

end TileRealm
