import ChatRelay.Server.ConnectionTask
/-!
# The hub

All connection tasks of a server and their shared room. After every input the
tasks are run until each of them waits. Timers expire in order.
-/

namespace ChatRelay

structure Hub where
  room : Room := {}
  router : Room.Router := {}
  /-- The channel capacity of a session. -/
  buffer : Nat := 5
  /-- The frame limit. -/
  limit : Nat := Frame.defaultLimit
  /-- All connection tasks, indexed by number. -/
  tasks : List ConnectionTask := []

namespace Hub

instance : Inhabited Hub := ⟨{}⟩

/-- A step of one task, which may change the room. -/
abbrev TaskStep := ConnectionTask → Room → ConnectionTask × Room

/-- Run a step of every task. -/
def runEach (step : TaskStep) :
    List ConnectionTask → Room → List ConnectionTask × Room
  | [], room => ([], room)
  | c :: rest, room =>
    let (c, room) := step c room
    let (rest, room) := runEach step rest room
    (c :: rest, room)

/-- Run a step of every task of a hub. -/
def each (hub : Hub) (step : TaskStep) : Hub :=
  let (tasks, room) := runEach step hub.tasks hub.room
  { hub with tasks, room }

/-- Run all tasks, then write the published events. -/
def settle (hub : Hub) (now : Time) : Hub :=
  (hub.each (ConnectionTask.resume now hub.router hub.buffer)).each
    ConnectionTask.writeEvents

/-- Accept a connection, and return its number. -/
def accept (hub : Hub) (context : Context) : Nat × Hub :=
  let number := hub.tasks.length
  let connection := Connection.ofLimit context.connection hub.limit
  (number, { hub with tasks := hub.tasks ++ [{ connection, context }] })

/-- Update the socket of one connection. -/
def onSocket (hub : Hub) (number : Nat) (f : Socket → Socket) : Hub :=
  { hub with tasks := hub.tasks.modify number fun c =>
      { c with
        connection := { c.connection with socket := f c.connection.socket } } }

/-- Split bytes into portions of the given length. -/
def portions (length : Nat) : (bound : Nat) → Bytes → List Bytes
  | 0, _ => []
  | bound + 1, bytes =>
    if bytes.isEmpty then []
    else bytes.take length :: portions length bound (bytes.drop length)

/-- Deliver bytes from a client, in portions that fit into a stream. -/
def deliver (hub : Hub) (now : Time) (number : Nat) (bytes : Bytes) : Hub :=
  (portions Socket.capacity bytes.length bytes).foldl
    (fun hub bytes => (hub.onSocket number (·.deliver bytes)).settle now) hub

/-- Update the socket of one connection and run all tasks. -/
def change (hub : Hub) (now : Time) (number : Nat)
    (f : Socket → Socket) : Hub :=
  (hub.onSocket number f).settle now

/-- The client takes the bytes sent to it. -/
def collect (hub : Hub) (number : Nat) : Bytes × Hub :=
  match hub.tasks[number]? with
  | none => ([], hub)
  | some c =>
    (c.connection.socket.collect.1, hub.onSocket number fun s => s.collect.2)

def nextDue? (hub : Hub) : Option Time :=
  (hub.tasks.filterMap ConnectionTask.due?).min?

def wake (hub : Hub) (now : Time) : Hub :=
  (hub.each (ConnectionTask.wake now hub.buffer)).settle now

/-- Advance the clock to a time, and handle the timers that expire until
then. -/
def advance (hub : Hub) (now target : Time) : Hub :=
  match hub.nextDue? with
  | none => hub
  | some due =>
    if h : now < due ∧ due ≤ target then
      have : target - due < target - now :=
        Nat.sub_lt_sub_left (Nat.lt_of_lt_of_le h.1 h.2) h.1
      advance (hub.wake due) due target
    else hub
termination_by target - now

/-- Call the router without a connection, and wait for the reply. Its records
are logged when it is available. -/
def call (hub : Hub) (router : Room.Router) (now : Time) (request : Request) :
    Option Reply × Time × Hub :=
  let (reply, room) := hub.room.call router now {} request
  let hub := { hub with room }
  match reply with
  | some (.ready delay _ records) =>
    let hub := hub.advance now (now + delay)
    (reply, now + delay, { hub with room := hub.room.record records })
  | _ => (reply, now, hub)

end Hub
end ChatRelay
