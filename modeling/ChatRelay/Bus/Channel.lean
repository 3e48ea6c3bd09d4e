/-!
# Bounded channels

A channel buffers the values that were sent and not yet received, in order and
up to its capacity.
-/

namespace ChatRelay

structure Channel (α : Type) where
  capacity : Nat
  /-- The buffered values, the oldest first. -/
  queue : List α := []
  /-- Whether the receiver still accepts new values. -/
  isOpen : Bool := true
  deriving DecidableEq, Repr

namespace Channel

variable {α : Type}

/-- The greatest number of permits of a semaphore, 2 ^ 61 - 1. -/
def maxCapacity : Nat := 2305843009213693951

/-- A new channel with at least one place, or none if the capacity exceeds the
maximum. -/
def refusal : String :=
  s!"a semaphore may not have more than MAX_PERMITS permits ({maxCapacity})"

/-- A new channel of at least one place, or an error if the capacity exceeds the
maximum. -/
def create? (capacity : Nat) : Option (Channel α) :=
  if max capacity 1 ≤ maxCapacity then some { capacity := max capacity 1 }
  else none

/-- The result of a non-blocking send. -/
inductive Sent where
  | delivered
  | full
  | closed
  deriving DecidableEq, Repr

/-- Non-blocking send. -/
def send (c : Channel α) (a : α) : Sent × Channel α :=
  if ¬ c.isOpen then (.closed, c)
  else if c.queue.length < c.capacity then
    (.delivered, { c with queue := c.queue ++ [a] })
  else (.full, c)

/-- Close the channel for sending. Buffered values can still be received. -/
def close (c : Channel α) : Channel α := { c with isOpen := false }

/-- Drop the receiver, and with it the buffered values. -/
def discard (c : Channel α) : Channel α :=
  { c with isOpen := false, queue := [] }

end Channel
end ChatRelay
