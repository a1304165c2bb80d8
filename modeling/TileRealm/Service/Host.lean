import TileRealm.Directory.Client
import TileRealm.Player.World
import TileRealm.Wire.Transcript

/-!
# Hosts

A world that serves connections.  The bytes of a connection are read as frames, in whatever
pieces they come, and handled one frame after the other; what is queued for a connection is sent
as soon as a frame is handled.  A connection is over when its input ends, when a payload cannot
be read, when its registration ends, or when the host shuts down; bytes behind the last handled
frame have no effect.
-/

namespace TileRealm

/-- A world that serves connections. -/
structure Host where
  world : World
  /-- The bytes of each live connection that no frame was made of yet. -/
  pending : Table ConnectionId Bytes := ∅
  /-- The bytes sent to each connection. -/
  sent : Table ConnectionId Bytes := ∅
  /-- Whether connections are accepted. -/
  listening : Bool := true

/-- Why a connection stops being read. -/
inductive ReadStop where
  /-- A payload cannot be read. -/
  | malformed (error : CodecError)
  /-- The registration has ended. -/
  | dismissed
deriving DecidableEq, Repr

namespace Host

/-! ### Sending -/

/-- Send what is queued for a connection. -/
def flushLine (h : Host) (id : ConnectionId) : Host :=
  let lobby := h.world.lobby
  let bytes := Transcript.bytes (lobby.queued id)
  { h with
    world := { h.world with lobby := lobby.drain id }
    sent := h.sent.insert id ((h.sent.get? id).getD [] ++ bytes) }

/-- Send everything that is queued. -/
def flush (h : Host) : Host := h.world.lobby.lines.keys.foldl flushLine h

/-- The bytes sent to a connection. -/
def sentTo (h : Host) (id : ConnectionId) : Bytes := (h.sent.get? id).getD []

/-- Forget the bytes that were sent. -/
def clearSent (h : Host) : Host := { h with sent := ∅ }

/-! ### Connections -/

/-- The connections that are being read. -/
def live (h : Host) : List ConnectionId := h.pending.keys

/-- Accept a connection. -/
def accept (h : Host) : Host × Option ConnectionId :=
  if h.listening then
    let (w, id) := h.world.connect
    ({ h with world := w, pending := h.pending.insert id [] }, some id)
  else (h, none)

/-- End connections.  All of them are unregistered before the first of them tells the others. -/
def closeAll (h : Host) (ids : List ConnectionId) : Host :=
  let w := ids.foldl World.close (ids.foldl World.remove h.world)
  let h := flush { h with world := w, pending := ids.foldl Table.erase h.pending }
  { h with world := { h.world with lobby := ids.foldl Lobby.discard h.world.lobby } }

/-- Handle frames of a connection, one after the other, until it stops being read. -/
def routeAll (id : ConnectionId) (h : Host) : List Frame → Host × Option ReadStop
  | [] => (h, none)
  | f :: fs =>
    match h.world.route id f.header.kindByte f.payload with
    | (w, some e) => ({ h with world := w }, some (.malformed e))
    | (w, none) =>
      let h := flush { h with world := w }
      if w.lobby.isDismissed id then (h, some .dismissed) else routeAll id h fs

/-- Take in bytes of a connection. -/
def receive (h : Host) (id : ConnectionId) (bytes : Bytes) : Host :=
  match h.pending.get? id with
  | none => h
  | some before =>
    let (frames, rest) := Frame.whole (before ++ bytes)
    match routeAll id h frames with
    | (h, none) => { h with pending := h.pending.insert id rest }
    | (h, some _) => h.closeAll [id]

/-- Take in the end of a connection's input. -/
def finish (h : Host) (id : ConnectionId) : Host :=
  if h.pending.contains id then h.closeAll [id] else h

/-- End the connections whose registration has ended. -/
def closeDismissed (h : Host) : Host :=
  h.closeAll (h.live.filter h.world.lobby.isDismissed)

/-! ### Time, reports and shutdown -/

/-- The times up to a last one at which registrations end, in order and without repetition. -/
def dueTimes (h : Host) (last : Nat) : List Nat :=
  (Table.ofList ((h.world.timers.filter fun t => t.due ≤ last).map fun t => (t.due, ()))).keys

/-- Let the clock reach a time. -/
def reach (h : Host) (time : Nat) : Host :=
  closeDismissed { h with world := h.world.advance (time - h.world.now) }

/-- Let time pass. -/
def advance (h : Host) (ms : Nat) : Host :=
  let last := h.world.now + ms
  reach ((h.dueTimes last).foldl reach h) last

/-- Take in reports of the directory. -/
def report (h : Host) (reports : List AddressReport) (now : Int) : Host :=
  { h with world := h.world.report reports now }

/-- Take in the directory's response, if one came, to a request for reports. -/
def refresh (h : Host) (directory : DirectoryClient) (response : Option HttpResponse) (now : Int) :
    Host :=
  { h with world := { h.world with book := (directory.refresh now response h.world.book).1 } }

/-- Accept no more connections and end those that there are. -/
def shutdown (h : Host) : Host := { h.closeAll h.live with listening := false }

end Host

end TileRealm
