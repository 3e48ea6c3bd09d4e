import ChatRelay.Bus.Subscribers
import ChatRelay.Chat.Event
import ChatRelay.Route.Dispatch
import ChatRelay.Store.Tables
/-!
# The shared state

The state shared by all calls and sessions: the store, the event bus, a supply
of fresh values, and the monitor.
-/

namespace ChatRelay

/-- A supply of fresh values. -/
structure Supply where
  /-- The sequence of identifiers. -/
  uuid : Nat → Uuid := Uuid.random
  /-- The sequence of colours. -/
  colour : Nat → Colour :=
    fun n => ⟨.ofNat (n * 97), .ofNat (n * 57), .ofNat (n * 17)⟩
  /-- The sequence of salts. -/
  salt : Nat → BitVec 128 := BitVec.ofNat 128
  /-- The number of values taken so far. -/
  taken : Nat := 0

instance : Inhabited Supply := ⟨{}⟩

structure Room where
  store : Store := {}
  /-- The error with which access to users and messages fails, if any. -/
  fault : Option String := none
  bus : Bus Event := {}
  supply : Supply := {}
  monitor : Monitor := {}
  /-- The last request id of each layer. -/
  counters : List (String × Nat) := []
  /-- The system time, in milliseconds since 1970, at which the monotonic clock
  shows 0. -/
  wall : Int := 0

namespace Room

instance : Inhabited Room := ⟨{}⟩

def takeUuid (room : Room) : Uuid × Room :=
  (room.supply.uuid room.supply.taken,
    { room with supply := { room.supply with taken := room.supply.taken + 1 } })

def takeColour (room : Room) : Colour × Room :=
  (room.supply.colour room.supply.taken,
    { room with supply := { room.supply with taken := room.supply.taken + 1 } })

def takeSalt (room : Room) : BitVec 128 × Room :=
  (room.supply.salt room.supply.taken,
    { room with supply := { room.supply with taken := room.supply.taken + 1 } })

/-- Increment a metrics counter. -/
def count (room : Room) (metric : Metric) (n : Int) : Room :=
  { room with monitor := room.monitor.count metric n }

/-- Append log records. -/
def record (room : Room) (rs : List Record) : Room :=
  { room with monitor := room.monitor.recordAll rs }

/-- The system time in milliseconds since 1970, clamped to the range from 0 to
the greatest 64-bit integer. -/
def unixMillis (room : Room) (now : Time) : Int :=
  min (max 0 (room.wall + now)) Text.maxLong

/-- The last request id given by a layer. -/
def lastId? (room : Room) (layer : String) : Option Nat :=
  (room.counters.find? fun c => c.1 = layer).map Prod.snd

/-- Register a request id layer, unless it is registered already. -/
def addCounter (room : Room) (layer : String) : Room :=
  match room.lastId? layer with
  | some _ => room
  | none => { room with counters := room.counters ++ [(layer, 0)] }

/-- The next request id of a layer. -/
def nextId (layer : String) (room : Room) : Nat × Room :=
  let id := (room.lastId? layer).getD 0 + 1
  (id, { room with
    counters := (layer, id) :: room.counters.filter fun c => c.1 ≠ layer })

/-- A router whose services share a room. -/
abbrev Router := Mux (Service Room)

/-- Route a call and count it. -/
def call (room : Room) (router : Router) (now : Time) (context : Context)
    (request : Request) : Option Reply × Room :=
  let room := room.count (router.metric request) 1
  match router.call now context request room with
  | some (reply, room) => (some reply, room)
  | none => (none, room)

/-- Publish an event, count the deliveries and log the drops. Nothing is counted
before the first subscription. -/
def publish (room : Room) (event : Event) : Nat × Room :=
  let (published, bus) := room.bus.publish event
  let kind := event.kind.name
  if room.bus.known then
    let room := { room with bus }
    let room := published.full.foldl (fun room slot =>
      (room.count (.dropped kind) 1).record [.channelFull kind slot]) room
    (published.delivered, room.count (.published kind) published.delivered)
  else (0, room)

/-- Run an operation on users or messages, which fails with the store's fault if
there is one. -/
def reading {α : Type} (room : Room) (read : Store → Except StoreError α) :
    Except StoreError α :=
  match room.fault with
  | some why => .error (.internal why)
  | none => read room.store

/-- Store a message under a fresh identifier. -/
def keepMessage (room : Room) (message : Message) :
    Except StoreError (Uuid × Room) :=
  match room.fault with
  | some why => .error (.internal why)
  | none =>
    let (id, room) := room.takeUuid
    .ok (id, { room with store := room.store.addMessage id message })

end Room
end ChatRelay
