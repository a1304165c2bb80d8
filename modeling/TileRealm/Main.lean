import TileRealm.Service.Startup
import Std.Async.DNS
import Std.Async.Signal
import Std.Async.TCP
import Std.Async.Timer
import Std.Sync.Channel

/-!
# The program

Reads the environment and the stored files, serves the region over TCP and stops when it is
interrupted.  What is decided is decided elsewhere: here a single loop takes in one event after
the other, hands it to the host, and sends what the host has to send.
-/

open Std.Async (Async)
open Std.Async.TCP.Socket (Client Server)

namespace TileRealm

namespace Program

/-! ### Stored files -/

/-- What a path leads to, with the entries of folders down to a depth. -/
def storedNode : Nat → String → IO (Option StoredNode)
  | depth, path => do
    try
      let place ← IO.FS.realPath path
      unless ← place.isDir do
        return some (.file (← IO.FS.readBinFile path).toList)
      match depth with
      | 0 => return some (.folder [])
      | depth + 1 =>
        let nodes ← (← place.readDir).toList.mapM fun entry => do
          return (← storedNode depth (joinPath path entry.fileName)).map (entry.fileName, ·)
        return some (.folder (nodes.filterMap id))
    catch _ => return none

/-- The variables that matter. -/
def environment : IO (String → Option String) := do
  let pairs ← Settings.variableNames.mapM fun name => do return (name, ← IO.getEnv name)
  return fun name => (pairs.lookup name).join

/-- The stored files that some settings name. -/
def storage (s : Settings) : IO Storage := do
  let maps ← storedNode 2 s.mapFolder
  let realm ← storedNode 0 s.realmPath
  return fun path =>
    if path == s.realmPath then realm else if path == s.mapFolder then maps else none

/-! ### The directory -/

/-- A time span in milliseconds. -/
def span (ms : Nat) : Std.Time.Millisecond.Offset := .ofNat ms

/-- What comes in on a connection until its end. -/
def receiveAll (socket : Client) : Async Bytes := do
  let mut received : ByteArray := .empty
  repeat
    let some chunk ← socket.recv? 65536 | break
    received := received ++ chunk
  return received.toList

/-- The response of the first address of a host that can be connected to. -/
def exchange (r : HttpRequest) (target : HttpTarget) : Async (Option HttpResponse) := do
  let addresses ← Std.Async.DNS.getAddrInfo target.endpoint.host ""
  for address in addresses do
    let socket ← Client.mk
    let reached ←
      try
        socket.connect <| match address with
          | .v4 a => .v4 ⟨a, target.endpoint.port⟩
          | .v6 a => .v6 ⟨a, target.endpoint.port⟩
        pure true
      catch _ => pure false
    if reached then
      socket.send ⟨(r.bytes target).toArray⟩
      return HttpResponse.ofBytes? (← receiveAll socket)
  return none

/-- The response to a request, if it comes in time. -/
def ask (r : HttpRequest) : Async (Option HttpResponse) := do
  let some target := HttpTarget.ofUrl? r.url | return none
  let late : Async (Option HttpResponse) := do
    Std.Async.sleep (span directoryTimeout)
    return none
  try
    Async.race (exchange r target) late
  catch _ => return none

/-! ### Events -/

/-- What the loop of the program is told. -/
inductive Event where
  | opened (socket : Client)
  | received (id : ConnectionId) (bytes : Bytes)
  | ended (id : ConnectionId)
  /-- The directory was asked for its reports. -/
  | refreshed (response : Option HttpResponse)
  /-- A time has come that the host waits for. -/
  | due
  | interrupted
deriving Inhabited

/-- Where events go. -/
abbrev Inbox := Std.Channel Event

/-- Let the loop know of an event. -/
def post (inbox : Inbox) (e : Event) : Async Unit := do
  discard <| inbox.send e

/-- Let something go on by itself. -/
def start (action : Async Unit) : IO Unit := do
  discard <| Async.toIO action

/-- Accept connections. -/
def acceptAll (inbox : Inbox) (listener : Server) : Async Unit := do
  repeat
    post inbox (.opened (← listener.accept))

/-- Read a connection to its end. -/
def readAll (inbox : Inbox) (id : ConnectionId) (socket : Client) : Async Unit := do
  try
    repeat
      let some chunk ← socket.recv? 65536 | break
      post inbox (.received id chunk.toList)
  catch _ => pure ()
  post inbox (.ended id)

/-- Ask for refreshes, the first one at once. -/
def refreshAll (inbox : Inbox) (directory : DirectoryClient) : Async Unit := do
  unless directory.disabled do
    repeat
      post inbox (.refreshed (← ask directory.regionsRequest))
      Std.Async.sleep (span refreshInterval)

/-- Wait for an interrupt. -/
def awaitInterrupt (inbox : Inbox) : Async Unit := do
  discard <| Std.Async.await (← (← Std.Async.Signal.Waiter.mk .sigint true).wait)
  post inbox .interrupted

/-! ### Serving -/

/-- The address of a listener. -/
def listenAddress : SocketAddress → Std.Net.SocketAddress
  | .v4 a b c d port => .v4 ⟨.ofParts a b c d, port⟩
  | .v6 groups _ port => .v6 ⟨⟨.ofFn fun i => groups.getD i.val 0⟩, port⟩

/-- Listen on an address. -/
def listen (address : SocketAddress) : IO (Option Server) := do
  try
    let listener ← Server.mk
    listener.bind (listenAddress address)
    listener.listen 1024
    return some listener
  catch _ => return none

/-- A host and the sockets of its connections. -/
structure Serving where
  host : Host
  sockets : List (ConnectionId × Client) := []

/-- Send what the host has to send, and close the connections that are over. -/
def deliver (s : Serving) : IO Serving := do
  let host := s.host.flush
  for (id, socket) in s.sockets do
    let bytes := host.sentTo id
    unless bytes.isEmpty do start (socket.send ⟨bytes.toArray⟩)
    unless host.live.contains id do start socket.shutdown
  return ⟨host.clearSent, s.sockets.filter fun (id, _) => host.live.contains id⟩

/-- Hand an event to the host. -/
def handle (inbox : Inbox) (directory : DirectoryClient) (s : Serving) (e : Event) :
    IO Serving := do
  match e with
  | .opened socket =>
    match s.host.accept with
    | (host, some id) =>
      start (readAll inbox id socket)
      return ⟨host, (id, socket) :: s.sockets⟩
    | (host, none) => return { s with host }
  | .received id bytes => return { s with host := s.host.receive id bytes }
  | .ended id => return { s with host := s.host.finish id }
  | .refreshed response =>
    let now := (← Std.Time.Timestamp.now).toMillisecondsSinceUnixEpoch.val
    return { s with host := s.host.refresh directory response now }
  | .due => return s
  | .interrupted => return { s with host := s.host.shutdown }

/-- Serve until the host is shut down; `begun` is when it was started. -/
partial def serve (inbox : Inbox) (directory : DirectoryClient) (begun : Nat) (s : Serving) :
    IO Unit := do
  let e ← IO.wait (← inbox.recv)
  let elapsed := (← IO.monoMsNow) - begun
  let s := { s with host := s.host.advance (elapsed - s.host.world.now) }
  let waiting := s.host.world.timers
  let s ← deliver (← handle inbox directory s e)
  for timer in s.host.world.timers do
    unless waiting.contains timer do
      start do
        Std.Async.sleep (span (timer.due - elapsed))
        post inbox .due
  if s.host.listening then serve inbox directory begun s

/-- Run the program; gives its exit status. -/
def run : IO UInt32 := do
  let lookup ← environment
  let storage ← match Settings.ofLookup lookup with
    | .ok s => storage s
    | .error _ => pure fun _ => none
  let plan := (Plan.make lookup storage).toOption
  let response ← match plan.bind Plan.firstRequest? with
    | some r => Async.block (ask r)
    | none => pure none
  let listener ← match plan with
    | some p => listen p.settings.bindAddress
    | none => pure none
  let startup := Startup.run
    { lookup, storage, directory := fun _ => response, bind := fun _ => listener.isSome }
  match startup.result, plan, listener with
  | .ok host, some plan, some listener =>
    let inbox ← Std.Channel.new
    start (acceptAll inbox listener)
    start (refreshAll inbox plan.directory)
    start (awaitInterrupt inbox)
    serve inbox plan.directory (← IO.monoMsNow) { host }
  | .error e, _, _ => IO.eprintln ("fatal: " ++ e.headline)
  | _, _, _ => pure ()
  return startup.exitStatus

end Program

end TileRealm

/-- The program. -/
def main : IO UInt32 := TileRealm.Program.run
