import TileRealm.Table
import TileRealm.Wire.ServerMessage

/-!
# The lobby

Who is in the region: what every registered connection shows to the others, and for every
connection the line on which messages to it are queued.  A snapshot goes to each registered
connection whose line has room; the others miss it.
-/

namespace TileRealm

/-- A connection, by the order in which it came. -/
abbrev ConnectionId := Nat

/-- What a session shows to the others.  The id is 0 until one is assigned. -/
structure View where
  clientId : Int32 := 0
  username : String := ""
  pos : Tile := .origin
  moving : Bool := false
deriving DecidableEq, Repr

/-- The messages on their way to a connection, oldest first. -/
structure Line where
  capacity : Nat
  queued : List ServerMessage := []
  /-- Nobody takes messages from the line any more. -/
  hungUp : Bool := false
  /-- The registration of the connection has ended, and it was not told yet. -/
  dismissed : Bool := false
deriving DecidableEq, Repr

namespace Line

/-- Queue a message if there is room for it. -/
def offer (l : Line) (m : ServerMessage) : Option Line :=
  if l.hungUp || l.queued.length ≥ l.capacity then none
  else some { l with queued := l.queued ++ [m] }

/-- Queue a message as soon as there is room for it. -/
def push (l : Line) (m : ServerMessage) : Line :=
  if l.hungUp then l else { l with queued := l.queued ++ [m] }

end Line

/-- Who is in the region. -/
structure Lobby where
  /-- What the registered connections show. -/
  views : Table ConnectionId View := ∅
  lines : Table ConnectionId Line := ∅
  /-- The id that is assigned next. -/
  nextId : Int32 := 1
deriving DecidableEq

namespace Lobby

/-! ### Rosters -/

/-- A view as it is listed. -/
def listed (v : View) : Player := ⟨v.clientId, v.pos, v.moving, v.username⟩

/-- Put a player in front of the first one whose id is not smaller. -/
def insertById (p : Player) : List Player → List Player
  | [] => [p]
  | q :: qs => if p.id ≤ q.id then p :: q :: qs else q :: insertById p qs

/-- The players with an id, in the order of their ids. -/
def roster (vs : List View) : List Player :=
  ((vs.filter fun v => v.clientId ≠ 0).map listed).foldr insertById []

/-! ### Connections -/

/-- Whether a connection is registered. -/
def isRegistered (l : Lobby) (id : ConnectionId) : Bool := l.views.contains id

/-- The number of registered connections. -/
def size (l : Lobby) : Nat := l.views.size

/-- Register a connection with a new line, in place of what it had. -/
def join (l : Lobby) (id : ConnectionId) (capacity : Nat) : Lobby :=
  { l with views := l.views.insert id {}, lines := l.lines.insert id { capacity } }

/-- End a registration and let the connection know. -/
def leave (l : Lobby) (id : ConnectionId) : Lobby :=
  if l.isRegistered id then
    { l with
      views := l.views.erase id
      lines := l.lines.modify id fun line => { line with dismissed := true } }
  else l

/-- Show a view in place of the last one; a connection that is not registered shows none. -/
def publish (l : Lobby) (id : ConnectionId) (v : View) : Lobby :=
  { l with views := l.views.modify id fun _ => v }

/-- Use up an id.  Ids are not used again. -/
def takeId (l : Lobby) : Lobby := { l with nextId := l.nextId + 1 }

/-! ### Messages -/

/-- Queue a message for a connection. -/
def send (l : Lobby) (id : ConnectionId) (m : ServerMessage) : Lobby :=
  { l with lines := l.lines.modify id (·.push m) }

/-- Queue a message for a connection if there is room; tells whether there was. -/
def offer (l : Lobby) (id : ConnectionId) (m : ServerMessage) : Lobby × Bool :=
  match (l.lines.get? id).bind (·.offer m) with
  | some line => ({ l with lines := l.lines.insert id line }, true)
  | none => (l, false)

/-- The snapshot of what is shown for a connection that shows a view. -/
def snapshotFor (shown : Table ConnectionId View) (v : View) : ServerMessage :=
  .playersSnapshot v.clientId (roster (shown.toList.map Prod.snd))

/-- Offer the snapshot of what is shown to each connection in it; tells how many had room. -/
def offerAll (l : Lobby) (shown : Table ConnectionId View) : Lobby × Nat :=
  shown.toList.foldl (fun (l, n) (id, v) =>
    let (l, queued) := l.offer id (snapshotFor shown v)
    (l, if queued then n + 1 else n)) (l, 0)

/-- Offer each registered connection its snapshot; tells how many had room for it. -/
def broadcast (l : Lobby) : Lobby × Nat := l.offerAll l.views

/-- The messages queued for a connection. -/
def queued (l : Lobby) (id : ConnectionId) : List ServerMessage :=
  match l.lines.get? id with
  | some line => line.queued
  | none => []

/-- Take the queued messages off a line. -/
def drain (l : Lobby) (id : ConnectionId) : Lobby :=
  { l with lines := l.lines.modify id fun line => { line with queued := [] } }

/-- Take messages off a line no more. -/
def hangUp (l : Lobby) (id : ConnectionId) : Lobby :=
  { l with lines := l.lines.modify id fun line => { line with queued := [], hungUp := true } }

/-- Give up a line. -/
def discard (l : Lobby) (id : ConnectionId) : Lobby := { l with lines := l.lines.erase id }

/-- Whether a connection has to be told that its registration ended. -/
def isDismissed (l : Lobby) (id : ConnectionId) : Bool :=
  (l.lines.get? id).any fun line => line.dismissed

/-- Count a connection as told. -/
def acknowledge (l : Lobby) (id : ConnectionId) : Lobby :=
  { l with lines := l.lines.modify id fun line => { line with dismissed := false } }

end Lobby

end TileRealm
