import TileRealm.Player.Lobby
import TileRealm.Shard
import TileRealm.Wire.ClientMessage

/-!
# Sessions

The state of one player and what the player's messages do to it.  Handling a message gives the
new state and the actions that it takes beyond it, in their order; how the actions work on the
lobby is another matter.
-/

namespace TileRealm

/-- For how long after an arrival teleports do not work, in milliseconds. -/
def teleportGrace : Nat := 1500

/-- The longest name, in bytes of UTF-8. -/
def maxUsernameLength : Nat := 32

/-- A player. -/
structure Session where
  /-- The id of the player, 0 until one is assigned. -/
  clientId : Int32 := 0
  username : String := ""
  pos : Tile := .origin
  ghostWidth : Int32 := GhostZone.minWidth
  /-- The neighbours that the player was told of, with the endpoints that were told. -/
  ghosts : Table String Endpoint := ∅
  moving : Bool := false
  provisional : Bool := false
  /-- A tile on which teleports do not work. -/
  safeSpot : Option Tile := none
  chunk : Chunk := ⟨0, 0⟩
  /-- When the player last moved. -/
  lastMove : Option Nat := none
  /-- When the player last arrived from elsewhere. -/
  lastArrival : Option Nat := none
deriving DecidableEq

/-- What a message is handled with. -/
structure Scene where
  shard : Shard
  book : AddressBook
  /-- The time in milliseconds. -/
  now : Nat
  /-- The id that is assigned next. -/
  nextId : Int32

/-- What handling a message does beyond the session. -/
inductive Action where
  /-- Use up an id. -/
  | takeId
  /-- Show a new view to the others. -/
  | publish (view : View)
  /-- Queue a message for the player. -/
  | send (message : ServerMessage)
  /-- Send everyone a snapshot. -/
  | broadcast
  /-- End the registration when the grace after a handoff is over. -/
  | dismissLater
deriving DecidableEq, Repr

namespace Session

/-- Whether the player has not moved yet. -/
def isFirstMove (s : Session) : Bool := s.lastMove.isNone

/-- What the others see. -/
def view (s : Session) : View := ⟨s.clientId, s.username, s.pos, s.moving⟩

/-! ### Configuration -/

/-- The session with a new width, name and, if it had none, id. -/
def configured (s : Session) (nextId : Int32) (width : Int32) (username : Option String) :
    Session :=
  { s with
    ghostWidth := GhostZone.clampWidth width
    username := (username.map (Text.truncate maxUsernameLength)).getD s.username
    clientId := if s.clientId = 0 then nextId else s.clientId }

/-- Handle a configuration. -/
def configure (scene : Scene) (s : Session) (width : Int32) (username : Option String) :
    Session × List Action :=
  let s' := s.configured scene.nextId width username
  let taken := if s.clientId = 0 then [Action.takeId] else []
  (s', taken ++
    [.publish s'.view, .send (.ghostZoneInfo s'.ghostWidth scene.shard.effective),
      .send (.playerInfo s'.clientId), .send (.deadZones scene.shard.deadZones)])

/-! ### Moving -/

/-- Whether a wish to be on a tile means an arrival: the first one, and one from afar. -/
def arrives (s : Session) (t : Tile) : Bool := s.isFirstMove || s.pos.distance t > 1

/-- The session after the arrival that a wish may mean. -/
def noteArrival (s : Session) (now : Nat) (t : Tile) : Session :=
  if s.arrives t then { s with safeSpot := some t, lastArrival := some now } else s

/-- Whether teleports work again after the last arrival. -/
def graceOver (s : Session) (now : Nat) : Bool :=
  match s.lastArrival with
  | some t => t + teleportGrace ≤ now
  | none => true

/-- The teleport that a wish to be on a tile sets off. -/
def trigger? (scene : Scene) (s : Session) (t : Tile) : Option Teleport :=
  if !s.arrives t && s.graceOver scene.now && s.safeSpot ≠ some t then scene.shard.teleport? t
  else none

/-- The message that hands a player over, by the endpoint that is known. -/
def handoffMessage (book : AddressBook) (teleport : Teleport) : ServerMessage :=
  match book.resolve teleport.region with
  | some e => .handoff teleport.region e.host (Int32.ofNat e.port.toNat) teleport.target
  | none => .handoff teleport.region "" 0 teleport.target

/-- The message that tells of a neighbour. -/
def enterMessage (region : String) (e : Endpoint) : ServerMessage :=
  .ghostZoneEnter region e.host (Int32.ofNat e.port.toNat)

/-- The message that takes back a neighbour. -/
def leaveMessage (region : String) (e : Endpoint) : ServerMessage :=
  .ghostZoneLeave region e.host (Int32.ofNat e.port.toNat)

/-- The neighbours to be told, with the endpoint that was told already or is known now. -/
def ghostsNear (s : Session) (candidates : List GhostCandidate) : List (String × Endpoint) :=
  candidates.filterMap fun c => ((s.ghosts.get? c.region).or c.endpoint).map (c.region, ·)

/-- The session after it was told of the neighbours near a tile, and the messages for it. -/
def refreshGhosts (scene : Scene) (s : Session) (t : Tile) : Session × List ServerMessage :=
  let near := s.ghostsNear (scene.shard.neighborsNear scene.book t s.ghostWidth)
  let ghosts := Table.ofList near
  let entered := near.filter fun (region, _) => !s.ghosts.contains region
  let left := s.ghosts.toList.filter fun (region, _) => !ghosts.contains region
  ({ s with ghosts },
    entered.map (fun (region, e) => enterMessage region e) ++
      left.map (fun (region, e) => leaveMessage region e))

/-- The step that a wish comes to, from where and to where, unless it comes to none. -/
def step? (s : Session) (t : Tile) : Option (Tile × Tile) :=
  if s.isFirstMove then some (t, t)
  else
    let next := s.pos.stepToward t
    if next = s.pos then none else some (s.pos, next)

/-- The session on another tile. -/
def moveTo (shard : Shard) (now : Nat) (s : Session) (t : Tile) : Session :=
  { s with
    safeSpot := if s.safeSpot = some t then s.safeSpot else none
    pos := t
    chunk := shard.chunkOf t
    lastMove := some now }

/-- The session after a wish to be on a tile, if it is granted. -/
def tryMove (shard : Shard) (now : Nat) (s : Session) (t : Tile) : Option Session :=
  if shard.isInside t then
    match s.step? t with
    | some (a, b) =>
      if shard.isInside b && shard.terrain.traversable a b then some (s.moveTo shard now b)
      else none
    | none => none
  else none

/-- Handle a wish to be on a tile that sets off no teleport. -/
def walk (scene : Scene) (s : Session) (t : Tile) : Session × List Action :=
  let (s, hints) := (s.noteArrival scene.now t).refreshGhosts scene t
  let hints := hints.map Action.send
  match s.tryMove scene.shard scene.now t with
  | some s => (s, hints ++ [.publish s.view, .broadcast, .send (.positionUpdate s.pos)])
  | none => (s, hints ++ [.send (.positionUpdate s.pos)])

/-- Handle a wish to be on a tile. -/
def requestMove (scene : Scene) (s : Session) (t : Tile) : Session × List Action :=
  match s.trigger? scene t with
  | some teleport => (s, [.send (handoffMessage scene.book teleport), .dismissLater])
  | none => s.walk scene t

/-! ### Other messages -/

/-- Handle news of the player's walking. -/
def setMoving (s : Session) (moving : Bool) : Session × List Action :=
  if s.moving = moving then (s, [])
  else
    let s := { s with moving }
    (s, [.publish s.view, .broadcast])

/-- Handle a message. -/
def handle (scene : Scene) (s : Session) : ClientMessage → Session × List Action
  | .moveRequest x y => s.requestMove scene ⟨x, y⟩
  | .clientConfig width username => s.configure scene width username
  | .provisionalConnection => ({ s with provisional := true }, [])
  | .moveState moving => s.setMoving moving

end Session

end TileRealm
