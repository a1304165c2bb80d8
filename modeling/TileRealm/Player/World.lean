import TileRealm.Player.Session

/-!
# Worlds

A shard with the sessions of all its connections, on a clock of milliseconds.  A world changes
only by the messages of its connections, by reports of the directory and by the passing of time,
which ends the registrations that a handoff has left to end.
-/

namespace TileRealm

/-- How long a registration outlives a handoff, in milliseconds, unless another time is set. -/
def defaultHandoffGrace : Nat := 250

/-- How many messages may be queued for a connection. -/
def outboundQueue : Nat := 256

/-- The end of a registration that is to come. -/
structure Timer where
  due : Nat
  connection : ConnectionId
deriving DecidableEq, Repr

/-- A shard in use. -/
structure World where
  shard : Shard
  book : AddressBook
  /-- How long a registration outlives a handoff. -/
  grace : Nat := defaultHandoffGrace
  now : Nat := 0
  lobby : Lobby := {}
  sessions : Table ConnectionId Session := ∅
  timers : List Timer := []
  nextConnection : ConnectionId := 0

namespace World

/-- What the messages of a connection are handled with now. -/
def scene (w : World) : Scene := ⟨w.shard, w.book, w.now, w.lobby.nextId⟩

/-- A new connection, with a session and a registration. -/
def connect (w : World) : World × ConnectionId :=
  let id := w.nextConnection
  ({ w with
    lobby := w.lobby.join id outboundQueue
    sessions := w.sessions.insert id {}
    nextConnection := id + 1 }, id)

/-- End the registrations whose time has come. -/
def expire (w : World) : World :=
  let (due, later) := w.timers.partition fun t => t.due ≤ w.now
  { w with
    lobby := due.foldl (fun l t => l.leave t.connection) w.lobby
    timers := later }

/-- Take an action for a connection. -/
def perform (id : ConnectionId) (w : World) : Action → World
  | .takeId => { w with lobby := w.lobby.takeId }
  | .publish v => { w with lobby := w.lobby.publish id v }
  | .send m => { w with lobby := w.lobby.send id m }
  | .broadcast => { w with lobby := w.lobby.broadcast.1 }
  | .dismissLater => { w with timers := w.timers ++ [⟨w.now + w.grace, id⟩] }

/-- Handle a message of a connection. -/
def dispatch (w : World) (id : ConnectionId) (m : ClientMessage) : World :=
  match w.sessions.get? id with
  | none => w
  | some s =>
    let (s, actions) := s.handle w.scene m
    expire <| actions.foldl (perform id) { w with sessions := w.sessions.insert id s }

/-- Handle a frame of a connection.  Kinds that are unknown or that only the region sends are
passed over; a payload that cannot be read is an error, which is told beside the world. -/
def route (w : World) (id : ConnectionId) (kindByte : UInt8) (payload : Bytes) :
    World × Option CodecError :=
  match Kind.ofByte? kindByte with
  | none => (w, none)
  | some k =>
    match ClientMessage.decode k payload with
    | .ok m => (w.dispatch id m, none)
    | .error (.unexpectedType _) => (w, none)
    | .error e => (w, some e)

/-- Let time pass. -/
def advance (w : World) (ms : Nat) : World := expire { w with now := w.now + ms }

/-- Take in reports of the directory. -/
def report (w : World) (reports : List AddressReport) (now : Int) : World :=
  { w with book := w.book.apply reports now }

/-- End a registration. -/
def remove (w : World) (id : ConnectionId) : World := { w with lobby := w.lobby.leave id }

/-- Forget the session of a connection that is over; the others get a snapshot if the player had
an id. -/
def close (w : World) (id : ConnectionId) : World :=
  let hadId := (w.sessions.get? id).any fun s => s.clientId ≠ 0
  let w := w.remove id
  let w := { w with sessions := w.sessions.erase id }
  if hadId then { w with lobby := w.lobby.broadcast.1 } else w

end World

end TileRealm
