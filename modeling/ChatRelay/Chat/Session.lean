import ChatRelay.Chat.Room
import ChatRelay.Link.Connection
/-!
# Chat sessions

A session stores the messages that its client sends, publishes them, and writes
published events to its client. A message is stored before it is published, with
a fresh identifier, the current time and the session's user as sender, whatever
the client claimed.
-/

namespace ChatRelay

/-- A session: the user it acts for, and its subscription to the bus. -/
structure Session where
  user : Int
  subscription : Bus.Subscription
  deriving DecidableEq, Repr

namespace Session

/-- A client's message with the server's sender, times and identifier. -/
def stamp (user millis : Int) (m : Message) : Message :=
  { m with
    id := Uuid.nil.text
    sender := user
    createdAt := millis
    updatedAt := millis }

def eventOf (frame : Bytes) : Except EventError Event := do
  Event.ofEnvelope (← Envelope.decode frame)

/-- Store the message of an event. Returns the event of the stored message, if
storing succeeded. -/
def persist (user : Int) (now : Time) (event : Event) (room : Room) :
    Option Event × Room :=
  let message := stamp user (room.unixMillis now) event.message
  match room.keepMessage message with
  | .ok (id, room) => (some (.newMessage { message with id := id.text }), room)
  | .error e => (none, room.record [.notStored e.message])

/-- Publish an event, if there is one. -/
def publish (event : Option Event) (room : Room) : Room :=
  event.elim room fun e => (room.publish e).2

/-- Store the message of an event and publish it. -/
def handleEvent (user : Int) (now : Time) (event : Event)
    (room : Room) : Room :=
  let (stored, room) := persist user now event room
  publish stored room

/-- Handle a frame from the client. -/
def handleFrame (user : Int) (now : Time) (room : Room)
    (frame : Bytes) : Room :=
  match eventOf frame with
  | .ok event => handleEvent user now event room
  | .error e => room.record [.rejected e.message]

/-- The events in the channel of the session. -/
def waiting (s : Session) (room : Room) : List Event :=
  (room.bus.channels[s.subscription.channel]?).elim [] Channel.queue

/-- Write at most `n` events from the channel, until the stream blocks or
fails. -/
def write (n : Nat) (s : Session) (c : Connection) (room : Room) :
    Outgoing × Connection × Room :=
  match c.flush with
  | (.written, c) =>
    let events := (s.waiting room).take n
    let (outgoing, left, c) := c.writeAll (events.map Event.bytes)
    let queue := (s.waiting room).drop (events.length - left.length)
    let bus :=
      room.bus.modify s.subscription.channel fun channel =>
        { channel with queue }
    (outgoing, c, { room with bus })
  | (other, c) => (other, c, room)

/-- Drop the receiver of the channel, so that no more events are written. -/
def dropReceiver (s : Session) (room : Room) : Room :=
  { room with bus := room.bus.modify s.subscription.channel Channel.discard }

/-- Subscribe to the bus, if the capacity is allowed. -/
def begin? (user : Int) (buffer : Nat) (room : Room) :
    Option (Session × Room) := do
  let (subscription, bus) ← room.bus.subscription? buffer
  return (⟨user, subscription⟩,
    { room with bus }.record [.newSubscriber subscription.slot])

/-- Free the slot on the bus. -/
def unsubscribe (s : Session) (room : Room) : Room :=
  { room with bus := room.bus.unsubscribe s.subscription.slot }

/-- The log record for the end of the client's stream. -/
def endRecord (e : FrameError) : Record :=
  if e.isClosed then .disconnected else .readFailed e.message

end Session
end ChatRelay
