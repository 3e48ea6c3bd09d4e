import ChatRelay.Bus.Channel
/-!
# The event bus

Subscribers occupy numbered slots, each with its own channel. A published value
is sent to the channel of every occupied slot that has room for it. Freed slots
are reused before new ones are created.
-/

namespace ChatRelay

structure Bus (α : Type) where
  /-- Whether anyone has ever subscribed. -/
  known : Bool := false
  /-- The channel of each slot, if the slot is occupied. -/
  slots : List (Option Nat) := []
  /-- All channels, indexed by number. -/
  channels : List (Channel α) := []
  deriving DecidableEq, Repr

namespace Bus

variable {α : Type}

instance : Inhabited (Bus α) := ⟨{}⟩

/-- Add a channel that no slot refers to yet, and return its number. -/
def addChannel (bus : Bus α) (c : Channel α) : Nat × Bus α :=
  (bus.channels.length, { bus with channels := bus.channels ++ [c] })

def modify (bus : Bus α) (channel : Nat) (f : Channel α → Channel α) : Bus α :=
  { bus with channels := bus.channels.modify channel f }

/-- The least slot that is not occupied. -/
def freeSlot (bus : Bus α) : Nat := bus.slots.findIdx Option.isNone

/-- Put a channel into the least free slot, and return that slot. -/
def subscribe (bus : Bus α) (channel : Nat) : Nat × Bus α :=
  let slot := bus.freeSlot
  let slots := if slot < bus.slots.length then bus.slots.set slot (some channel)
    else bus.slots ++ [some channel]
  (slot, { bus with known := true, slots })

def unsubscribe (bus : Bus α) (slot : Nat) : Bus α :=
  { bus with slots := bus.slots.set slot none }

def occupied (bus : Bus α) : Nat := bus.slots.countP Option.isSome

/-- A subscription: the slot to free when it ends, and the channel to receive
from. -/
structure Subscription where
  slot : Nat
  channel : Nat
  deriving DecidableEq, Repr

/-- Subscribe with a new channel, if the capacity is allowed. -/
def subscription? (bus : Bus α) (capacity : Nat) :
    Option (Subscription × Bus α) := do
  let c ← Channel.create? capacity
  let (channel, bus) := bus.addChannel c
  let (slot, bus) := bus.subscribe channel
  return (⟨slot, channel⟩, bus)

/-- The result of publishing a value. -/
structure Published where
  /-- The number of channels that accepted the value. -/
  delivered : Nat := 0
  /-- The slots whose channel had no room. -/
  full : List Nat := []
  deriving DecidableEq, Repr

/-- Send to the channels of some slots, of which the first has the given
number. -/
def sendAll (a : α) (slot : Nat) (slots : List (Option Nat))
    (channels : List (Channel α)) : Published × List (Channel α) :=
  match slots with
  | [] => ({}, channels)
  | none :: rest => sendAll a (slot + 1) rest channels
  | some n :: rest =>
    match channels[n]? with
    | none => sendAll a (slot + 1) rest channels
    | some c =>
      let (sent, c) := c.send a
      let (published, channels) := sendAll a (slot + 1) rest (channels.set n c)
      match sent with
      | .delivered =>
        ({ published with delivered := published.delivered + 1 }, channels)
      | .full => ({ published with full := slot :: published.full }, channels)
      | .closed => (published, channels)

def publish (bus : Bus α) (a : α) : Published × Bus α :=
  let (published, channels) := sendAll a 0 bus.slots bus.channels
  (published, { bus with channels })

/-- The result of a non-blocking receive. -/
inductive Received (α : Type) where
  | value (a : α)
  /-- The channel is open and nothing is buffered. -/
  | empty
  /-- The channel is closed and drained. -/
  | disconnected
  deriving DecidableEq, Repr

/-- Non-blocking receive. -/
def receive (bus : Bus α) (channel : Nat) : Received α × Bus α :=
  match bus.channels[channel]? with
  | none => (.disconnected, bus)
  | some c =>
    match c.queue with
    | a :: queue =>
      (.value a,
        { bus with channels := bus.channels.set channel { c with queue } })
    | [] =>
      (if c.isOpen ∧ some channel ∈ bus.slots then .empty else .disconnected,
        bus)

end Bus
end ChatRelay
