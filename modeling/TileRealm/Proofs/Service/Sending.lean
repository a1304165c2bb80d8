import TileRealm.Proofs.Player.Sound
import TileRealm.Proofs.Wire.Series
import TileRealm.Service.Host

/-!
# What connections are sent

The bytes of a transcript are read back as the messages that fit into frames, and nothing shows that
there were others (`Transcript.messages_bytes`).  A host sends what is queued, in whatever portions:
what was sent and what still waits are together the transcript of all that was queued
(`Host.owed_run`), so that a connection reads back what was queued for it (`Host.sent_read_back`).
-/

namespace TileRealm

open TileRealm.Frame

namespace ServerMessage

/-- What is put into the frame of a message. -/
def parcel (m : ServerMessage) : Parcel := ⟨m.kind, m.payload⟩

theorem decode_frame_parcel {m : ServerMessage} (h : m.parcel.Fits) :
    decode m.parcel.frame = .ok m :=
  decode_written h

end ServerMessage

namespace Transcript

theorem bytes_eq_stream (ms : List ServerMessage) :
    bytes ms = Parcel.stream (ms.map ServerMessage.parcel) := by
  rw [Parcel.stream, List.flatMap_map]
  rfl

theorem bytes_append (ms ns : List ServerMessage) : bytes (ms ++ ns) = bytes ms ++ bytes ns :=
  List.flatMap_append

/-- The messages that fit into frames. -/
def fitting (ms : List ServerMessage) : List ServerMessage :=
  ms.filter fun m => m.payload.length ≤ 65535

/-- Messages that do not fit into frames leave no trace. -/
theorem bytes_fitting (ms : List ServerMessage) : bytes (fitting ms) = bytes ms := by
  induction ms with
  | nil => rfl
  | cons m ms ih =>
    by_cases hm : m.payload.length ≤ 65535
    · rw [fitting, List.filter_cons_of_pos (by simpa using hm)]
      exact congrArg (m.parcel.bytes ++ ·) ih
    · rw [fitting, List.filter_cons_of_neg (by simpa using hm)]
      refine ih.trans ?_
      have hnone : m.parcel.bytes = [] := Parcel.bytes_eq_nil hm
      show bytes ms = m.parcel.bytes ++ bytes ms
      rw [hnone, List.nil_append]

/-- A transcript is whole frames, those of the messages that fit. -/
theorem whole_bytes (ms : List ServerMessage) :
    whole (bytes ms) = ((fitting ms).map fun m => m.parcel.frame, []) := by
  rw [bytes_eq_stream, Parcel.whole_stream, List.filter_map, List.map_map]
  rfl

theorem messages_bytes (ms : List ServerMessage) : messages (bytes ms) = (fitting ms).map .ok := by
  rw [messages, readAll, whole_bytes, List.map_map]
  refine List.map_congr_left fun m hm => ?_
  exact ServerMessage.decode_frame_parcel (of_decide_eq_true (List.mem_filter.1 hm).2)

theorem readAll_bytes_snd (ms : List ServerMessage) : (readAll (bytes ms)).2 = .closed := by
  rw [readAll, whole_bytes]
  rfl

end Transcript

namespace Host

/-- What a host does to have connections told something. -/
inductive Errand where
  /-- A message is queued for a connection. -/
  | send (id : ConnectionId) (m : ServerMessage)
  /-- A message is queued for a connection if there is room. -/
  | offer (id : ConnectionId) (m : ServerMessage)
  /-- What is queued for a connection is sent. -/
  | flush (id : ConnectionId)

/-- The host after an errand. -/
def errand (h : Host) : Errand → Host
  | .send id m => { h with world := { h.world with lobby := h.world.lobby.send id m } }
  | .offer id m => { h with world := { h.world with lobby := (h.world.lobby.offer id m).1 } }
  | .flush id => h.flushLine id

/-- The host after errands, one after the other. -/
def run (h : Host) (es : List Errand) : Host := es.foldl errand h

/-- A host sends everything that is queued line by line. -/
theorem flush_eq_run (h : Host) : h.flush = h.run (h.world.lobby.lines.keys.map .flush) := by
  rw [run, List.foldl_map]
  rfl

/-- What an errand queues for a connection. -/
def queuedBy (h : Host) (id : ConnectionId) : Errand → List ServerMessage
  | .send id' m => if id = id' ∧ h.world.lobby.hungUp? id' = some false then [m] else []
  | .offer id' m =>
    if id = id' ∧ (h.world.lobby.lines.get? id').any Line.hasRoom then [m] else []
  | .flush _ => []

/-- All that is queued for a connection in errands. -/
def transcript (h : Host) (id : ConnectionId) : List Errand → List ServerMessage
  | [] => []
  | e :: es => h.queuedBy id e ++ (h.errand e).transcript id es

theorem sentTo_flushLine (h : Host) (id id' : ConnectionId) :
    (h.flushLine id).sentTo id' =
      if id' = id then h.sentTo id ++ Transcript.bytes (h.world.lobby.queued id)
      else h.sentTo id' := by
  simp only [sentTo, flushLine, Table.get?_insert]
  split <;> rfl

theorem queued_flushLine (h : Host) (id id' : ConnectionId) :
    (h.flushLine id).world.lobby.queued id' = if id' = id then [] else h.world.lobby.queued id' :=
  Lobby.queued_drain ..

/-- What was sent to a connection, and what will be when its line is flushed. -/
def owed (h : Host) (id : ConnectionId) : Bytes :=
  h.sentTo id ++ Transcript.bytes (h.world.lobby.queued id)

/-- An errand adds what it queues, wherever that is then. -/
theorem owed_errand (h : Host) (id : ConnectionId) (e : Errand) :
    (h.errand e).owed id = h.owed id ++ Transcript.bytes (h.queuedBy id e) := by
  have hqueue : ∀ h' : Host, h'.sentTo id = h.sentTo id →
      h'.world.lobby.queued id = h.world.lobby.queued id ++ h.queuedBy id e →
      h'.owed id = h.owed id ++ Transcript.bytes (h.queuedBy id e) := by
    intro h' hsent hqueued
    rw [owed, hsent, hqueued, Transcript.bytes_append, ← List.append_assoc, owed]
  cases e with
  | send id' m => exact hqueue _ rfl (Lobby.queued_send_eq ..)
  | offer id' m => exact hqueue _ rfl (Lobby.queued_offer ..)
  | flush id' =>
    show (h.flushLine id').owed id = h.owed id ++ []
    rw [List.append_nil, owed, sentTo_flushLine, queued_flushLine]
    by_cases hid : id = id'
    · rw [if_pos hid, if_pos hid, hid]
      exact List.append_nil _
    · rw [if_neg hid, if_neg hid, owed]

/-- What was sent and what still waits are together all that was queued. -/
theorem owed_run (h : Host) (id : ConnectionId) (es : List Errand) :
    (h.run es).owed id = h.owed id ++ Transcript.bytes (h.transcript id es) := by
  induction es generalizing h with
  | nil => exact (List.append_nil _).symm
  | cons e es ih =>
    rw [transcript, Transcript.bytes_append, ← List.append_assoc, ← owed_errand]
    exact ih _

/-- An open line takes whatever is sent over it. -/
theorem transcript_map_send {h : Host} {id : ConnectionId}
    (hopen : h.world.lobby.hungUp? id = some false) (ms : List ServerMessage) :
    h.transcript id (ms.map (.send id)) = ms := by
  induction ms generalizing h with
  | nil => rfl
  | cons m ms ih =>
    have hopen' : (h.errand (.send id m)).world.lobby.hungUp? id = some false :=
      (Lobby.hungUp?_send ..).trans hopen
    rw [List.map_cons, transcript, ih hopen', queuedBy, if_pos ⟨rfl, hopen⟩, List.singleton_append]

/-- A connection that is sent all that was queued for it reads back the messages that fit into
frames, in order and up to the end of the last frame, and nothing shows that there were others. -/
theorem sent_read_back {h : Host} {id : ConnectionId} (hsent : h.sentTo id = [])
    (hqueued : h.world.lobby.queued id = []) (es : List Errand) :
    let b := ((h.run es).flushLine id).sentTo id
    let fitting := (h.transcript id es).filter fun m => m.payload.length ≤ 65535
    Transcript.messages b = fitting.map .ok ∧ (readAll b).2 = .closed ∧ (whole b).2 = [] ∧
      b = Transcript.bytes fitting := by
  intro b fitting
  have hb : b = Transcript.bytes (h.transcript id es) := by
    have howed := owed_run h id es
    rw [show h.owed id = [] by rw [owed, hsent, hqueued]; rfl, List.nil_append] at howed
    rw [← howed, show b = _ from sentTo_flushLine .., if_pos rfl, owed]
  rw [hb]
  exact ⟨Transcript.messages_bytes _, Transcript.readAll_bytes_snd _,
    congrArg Prod.snd (Transcript.whole_bytes _), (Transcript.bytes_fitting _).symm⟩

/-- What is queued before and after a first flush, with more dead zones between than a frame holds,
and what is queued for nobody. -/
theorem sent_read_back_deadZones :
    let h : Host := (accept { world := World.quietCrossing }).1
    let desert : ServerMessage := .deadZones (List.replicate 8192 ⟨0, 0⟩)
    let es : List Errand :=
      [.send 0 (.playerInfo 1), .send 1 (.playerInfo 2), .flush 0, .send 0 desert,
        .offer 0 (.positionUpdate ⟨5, 6⟩)]
    let b := ((h.run es).flushLine 0).sentTo 0
    h.sentTo 0 = [] ∧ h.world.lobby.queued 0 = [] ∧ 65535 < desert.payload.length ∧
      h.transcript 0 es = [.playerInfo 1, desert, .positionUpdate ⟨5, 6⟩] ∧
      Transcript.messages b = [.ok (.playerInfo 1), .ok (.positionUpdate ⟨5, 6⟩)] ∧
      (readAll b).2 = .closed ∧ b.length = 18 := by
  intro h desert es b
  have hlarge : 65535 < desert.payload.length := by
    rw [ServerMessage.payload, List.length_append, List.length_flatMap, List.map_replicate,
      List.sum_replicate_nat]
    exact Nat.lt_add_left _ (by decide)
  have htranscript : h.transcript 0 es = [.playerInfo 1, desert, .positionUpdate ⟨5, 6⟩] := rfl
  have hfitting : ((h.transcript 0 es).filter fun m => m.payload.length ≤ 65535) =
      [.playerInfo 1, .positionUpdate ⟨5, 6⟩] := by
    rw [htranscript, List.filter_cons_of_pos (by decide),
      List.filter_cons_of_neg (by simpa using hlarge), List.filter_cons_of_pos (by decide),
      List.filter_nil]
  have hsent : h.sentTo 0 = [] := rfl
  have hqueued : h.world.lobby.queued 0 = [] := rfl
  obtain ⟨hmessages, hend, -, hbytes⟩ := sent_read_back hsent hqueued es
  rw [hfitting] at hmessages hbytes
  exact ⟨hsent, hqueued, hlarge, htranscript, hmessages, hend, congrArg List.length hbytes⟩

end Host

end TileRealm
