import ChatRelay.Chat.Api
import ChatRelay.Server.Hub
import ChatRelay.Server.Listener
import ChatRelay.Settings.CommandLine
import Std.Internal.UV.TCP
import Std.Sync.Channel
import Std.Time.DateTime.Timestamp
/-!
# The program

A single event loop holds the state. Everything that waits does so in a task of
its own, which sends an event to the loop.
-/

namespace ChatRelay.Main

/-- The server end of an accepted connection. -/
abbrev Stream := Std.Internal.UV.TCP.Socket

inductive LoopEvent where
  /-- A connection was accepted. -/
  | arrived (stream : Stream)
  /-- Accepting a connection failed. -/
  | failed (why : String)
  /-- An action of a client. -/
  | client (number : Nat) (act : Socket → Socket)
  /-- Bytes from a client. -/
  | received (number : Nat) (bytes : Bytes)
  /-- A timer expired. -/
  | tick

instance : Inhabited LoopEvent := ⟨.tick⟩

abbrev Inbox := Std.Channel.Sync LoopEvent

/-- A client that is being served. -/
structure Peer where
  number : Nat
  /-- The task of the connection. -/
  task : Nat
  stream : Stream

structure State where
  hub : Hub
  /-- The time up to which all timers were handled. -/
  clock : Time
  listener : Listener
  peers : List Peer := []
  /-- Whether an accept is pending. -/
  accepting : Bool := false
  /-- The time of the pending timer, if any. -/
  alarm : Option Time := none

/-- Wait for a network promise. -/
def wait {α : Type} (promise : IO.Promise (Except IO.Error α)) : IO α := do
  match ← IO.wait promise.result? with
  | some result => IO.ofExcept result
  | none => throw (IO.userError "the connection is gone")

/-- Run in a separate task. -/
def inBackground (act : IO Unit) : IO Unit := discard (IO.asTask act .dedicated)

/-- Send the actions of a client to the loop until the stream ends. -/
partial def readClient (inbox : Inbox) (number : Nat) (stream : Stream) :
    IO Unit := do
  let received ← try wait (← stream.recv? 8192)
    catch _ => do
      inbox.send (.client number Socket.leave)
      return
  match received with
  | none => inbox.send (.client number Socket.finish)
  | some bytes =>
    inbox.send (.received number bytes.toList)
    readClient inbox number stream

/-- Send the next accepted connection to the loop. -/
def awaitConnection (inbox : Inbox) (server : Stream) : IO Unit := do
  try inbox.send (.arrived (← wait (← server.accept)))
  catch e => inbox.send (.failed (toString e))

/-- Milliseconds on the clock of the hub. -/
def now : IO Time := IO.monoMsNow

/-- A hub with random fresh values. -/
def refresh (hub : Hub) : IO Hub := do
  let seed :=
    (← IO.getRandomBytes 16).toList.foldl (fun n b => n * 256 + b.toNat) 0
  return { hub with
    room.supply.uuid := fun n => Uuid.random (seed + n)
    room.supply.colour := fun n =>
      let bits := seed + n
      ⟨.ofNat bits, .ofNat (bits / 256), .ofNat (bits / 65536)⟩ }

def printLine (line : String) : IO Unit := do
  IO.println line
  (← IO.getStdout).flush

/-- Print and clear the log records. -/
def report (hub : Hub) : IO Hub := do
  for record in hub.room.monitor.log do
    printLine record.text
  return { hub with room.monitor := hub.room.monitor.clear }

/-- Run an action that fails only if the client is gone. -/
def attempt (act : IO Unit) : IO Unit := do
  try act catch _ => return

/-- Close the connection of a client. -/
def disconnect (peer : Peer) : IO Unit := do
  attempt peer.stream.cancelRecv
  attempt (discard peer.stream.shutdown)

/-- Send the pending output of a client. Returns whether there may be more. -/
def sendOutput (hub : Hub) (peer : Peer) : IO (Bool × Hub) := do
  let isOver := hub.tasks[peer.number]?.elim true ConnectionTask.isOver
  let (bytes, hub) := hub.collect peer.number
  unless bytes.isEmpty do
    attempt (discard (peer.stream.send #[⟨bytes.toArray⟩]))
  if isOver then disconnect peer
  return (!isOver, hub)

/-- Send all pending output, and disconnect the clients whose tasks have
ended. -/
def sendAll (s : State) : IO State :=
  s.peers.foldlM (fun s peer => do
    let (goesOn, hub) ← sendOutput s.hub peer
    if goesOn then return { s with hub, peers := s.peers ++ [peer] }
    else return { s with hub, listener := s.listener.finish peer.task })
    { s with peers := [] }

/-- Start the pending accept and the next timer. -/
def prepare (inbox : Inbox) (server : Stream) (s : State) : IO State := do
  let mut s := s
  if s.listener.isReady && !s.accepting then
    inBackground (awaitConnection inbox server)
    s := { s with accepting := true }
  if let some due := s.hub.nextDue? then
    if s.alarm.all (due < ·) then
      let left := min (due - (← now)) 60000
      inBackground (do IO.sleep left.toUInt32; inbox.send .tick)
      s := { s with alarm := some due }
  return s

def acceptConnection (inbox : Inbox) (stream : Stream) (s : State) :
    IO State := do
  match s.listener.accept? with
  | none => return s
  | some (task, listener) =>
    let (number, hub) := s.hub.accept { connection := s.hub.tasks.length + 1 }
    inBackground (readClient inbox number stream)
    return { s with
      hub, listener, peers := s.peers ++ [{ number, task, stream }] }

partial def loop (inbox : Inbox) (server : Stream) (s : State) : IO Unit := do
  let s ← sendAll { s with hub := ← report s.hub }
  let s ← prepare inbox server s
  let event ← inbox.recv
  let time ← now
  let hub ← refresh (s.hub.advance s.clock time)
  let s := { s with hub, clock := time }
  match event with
  | .arrived stream =>
    loop inbox server
      (← acceptConnection inbox stream { s with accepting := false })
  | .failed why =>
    IO.eprintln s!"Failed to accept connection: {why}"
    loop inbox server
      { s with accepting := false, listener := s.listener.acceptFailed }
  | .client number act =>
    loop inbox server { s with hub := hub.change time number act }
  | .received number bytes =>
    loop inbox server { s with hub := hub.deliver time number bytes }
  | .tick => loop inbox server { s with alarm := none }

/-- The network representation of a socket address. -/
def socketAddress? (address : Address) : Option Std.Net.SocketAddress :=
  let port := address.port.toUInt16
  match address.host with
  | .v4 [a, b, c, d] =>
    some (.v4 ⟨.ofParts a.toUInt8 b.toUInt8 c.toUInt8 d.toUInt8, port⟩)
  | .v6 [a, b, c, d, e, f, g, h] _ =>
    some (.v6 ⟨.ofParts a.toUInt16 b.toUInt16 c.toUInt16 d.toUInt16
      e.toUInt16 f.toUInt16 g.toUInt16 h.toUInt16, port⟩)
  | _ => none

/-- A hub that starts now. -/
def newHub (settings : Settings) : IO Hub := do
  let wall := (← Std.Time.Timestamp.now).toMillisecondsSinceUnixEpoch.toInt
  let room : Room := { wall := wall - (← now) }
  return {
    room
    router := Chat.router .plain "" settings.timeout
    buffer := settings.chatBuffer
    limit := settings.maxFrameLength }

def serve (settings : Settings) : IO UInt32 := do
  let some address := socketAddress? settings.address
    | throw (IO.userError "no address to listen on")
  let some listener := Listener.start? settings.maxConnections
    | throw (IO.userError "too many connections to admit")
  let server ← Std.Internal.UV.TCP.Socket.new
  server.bind address
  server.listen 1024
  let hub ← newHub settings
  let hub := { hub with room := hub.room.record [.listening hub.router.size] }
  let inbox : Inbox ← Std.Channel.Sync.new
  loop inbox server { hub, listener, clock := ← now }
  return 0

/-- The contents of a file, if it is readable. -/
def read? (path : String) : IO (Option Bytes) := do
  try return some (← IO.FS.readBinFile path).toList
  catch _ => return none

/-- The environment variables that correspond to options. -/
def inherited : IO (List (String × String)) :=
  Setting.all.filterMapM fun setting => do
    return (← IO.getEnv setting.variableName).map fun value =>
      (setting.variableName, value)

/-- Run the program with some arguments. -/
def run (args : List String) : IO UInt32 := do
  let given ← inherited
  match Options.parse args fun name => given.lookup name with
  | .error .help => IO.println Options.help; return 0
  | .error .version => IO.println Options.version; return 0
  | .error e => IO.eprintln s!"error: {e.message}"; return 2
  | .ok options =>
    let file ← options.document.elim (pure none) read?
    match options.settings fun _ => file with
    | .error e => IO.eprintln s!"Error: {e.message}"; return 1
    | .ok settings => serve settings

end ChatRelay.Main

def main (args : List String) : IO UInt32 := ChatRelay.Main.run args
