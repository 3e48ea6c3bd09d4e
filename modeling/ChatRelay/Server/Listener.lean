import ChatRelay.Bus.Channel
import ChatRelay.Server.Tasks
/-!
# Listeners

A listener accepts connections and serves each in a task of its own, limited by
the number of permits. The accept loop holds the permit for the next connection
while it waits. Permits are returned when the loop or a task ends, for whatever
reason.
-/

namespace ChatRelay

structure AcceptedConnection where
  /-- The task that serves the connection. -/
  task : Nat
  /-- Whether the task holds a permit. -/
  hasPermit : Bool
  deriving DecidableEq, Repr

/-- The ways in which the task of a connection can end. -/
inductive Ending where
  /-- It completed. -/
  | done
  /-- It panicked. -/
  | broken
  /-- It was cancelled. -/
  | dropped
  deriving DecidableEq, Repr

structure Listener where
  /-- Whether connections need permits. -/
  isLimited : Bool := false
  /-- The number of free permits. -/
  free : Nat := 0
  /-- Whether the accept loop holds a permit. -/
  holding : Bool := false
  /-- The number of connections being served. -/
  active : Nat := 0
  /-- The connections accepted so far. -/
  connections : List AcceptedConnection := []
  family : TaskFamily := {}
  deriving DecidableEq, Repr

namespace Listener

/-- The task set of the accept loop. -/
def acceptSet : Nat := 1

/-- The task of the accept loop. -/
def loop : Nat := 0

def maxPermits : Nat := Channel.maxCapacity

def isLooping (l : Listener) : Bool := !l.family.isDone loop

/-- A listener whose accept loop has not run yet, if the number of permits is
allowed. -/
def begin? (limit : Option Nat) : Option Listener :=
  if limit.elim true (· ≤ maxPermits) then
    let (accept, family) := TaskFamily.child {} TaskFamily.root
    let (_, family) := family.spawn 0 accept none
    some { isLimited := limit.isSome, free := limit.getD 0, family }
  else none

/-- The accept loop takes a permit, if it needs one and one is free. -/
def acquire (l : Listener) : Listener :=
  if l.isLimited ∧ l.isLooping ∧ ¬ l.holding ∧ 0 < l.free then
    { l with free := l.free - 1, holding := true }
  else l

/-- A listener whose accept loop is waiting for a connection. -/
def start? (limit : Option Nat) : Option Listener := (begin? limit).map acquire

/-- The accept loop returns its permit. -/
def returnPermit (l : Listener) : Listener :=
  if l.holding then { l with holding := false, free := l.free + 1 } else l

/-- Whether the accept loop can accept a connection. -/
def isReady (l : Listener) : Bool := l.isLooping && (!l.isLimited || l.holding)

/-- Accept a connection with the permit of the accept loop, and return its
task. -/
def admit? (l : Listener) : Option (Nat × Listener) :=
  if l.isReady then
    let (set, family) := l.family.child TaskFamily.root
    let (task, family) := family.addTask 0 set none
    some (task, { l with
      holding := false
      active := l.active + 1
      connections := l.connections ++ [⟨task, l.holding⟩]
      family })
  else none

/-- Accept a connection, acquire the next permit, and return the task. -/
def accept? (l : Listener) : Option (Nat × Listener) :=
  l.admit?.map fun (task, l) => (task, l.acquire)

def fail (l : Listener) : Listener := if l.isReady then l.returnPermit else l

/-- Accepting a connection failed, and the accept loop tries again. -/
def acceptFailed (l : Listener) : Listener := l.fail.acquire

/-- Return the permit of a connection and decrement the count. -/
def release (l : Listener) (c : AcceptedConnection) : Listener :=
  { l with
    active := l.active - 1
    free := if c.hasPermit then l.free + 1 else l.free }

/-- The tasks after one of them ended. A completed task cancels its own set. A
cancelled task ends only if its set is cancelled. -/
def familyAfter (l : Listener) (task : Nat) : Ending → TaskFamily
  | .done =>
    let family := l.family.finish 0 task
    family.markCancelled (family.tasks[task]?.elim TaskFamily.root Task.set)
  | .broken => l.family.finish 0 task
  | .dropped => l.family.poll 0 false task

def endConnection (l : Listener) (task : Nat) (how : Ending) : Listener :=
  match l.connections.find? fun c => c.task = task with
  | none => l
  | some c =>
    let family := l.familyAfter task how
    if !l.family.isDone task && family.isDone task then
      { l.release c with family } else l

/-- A connection completes, and the accept loop may acquire a permit. -/
def finish (l : Listener) (task : Nat) : Listener :=
  (l.endConnection task .done).acquire

def markCancelled (l : Listener) (set : Nat) : Listener :=
  { l with family := l.family.markCancelled set }

/-- End the accept loop if its set is cancelled. -/
def endLoop (l : Listener) : Listener :=
  let l := { l with family := l.family.poll 0 false loop }
  if l.isLooping then l else l.returnPermit

def stopAccepting (l : Listener) : Listener :=
  (l.markCancelled acceptSet).endLoop

/-- Cancel the accept loop and all connections. -/
def cancel (l : Listener) : Listener :=
  l.connections.foldl (fun l c => l.endConnection c.task .dropped)
    (l.markCancelled TaskFamily.root).endLoop

def close (l : Listener) : Listener := { l with family := l.family.close }

/-- Whether the accept loop is not cancelled. -/
def isAccepting (l : Listener) : Bool := !l.family.isCancelled acceptSet

def isCancelled (l : Listener) : Bool := l.family.isCancelled TaskFamily.root

def isClosed (l : Listener) : Bool := l.family.closed

def isSettled (l : Listener) : Bool := l.family.isSettled

/-- Graceful shutdown: stop accepting, and let connections complete. -/
def drain (l : Listener) : Listener := l.stopAccepting.close

/-- Immediate shutdown: cancel all tasks. -/
def shutdown (l : Listener) : Listener := l.cancel.close

end Listener
end ChatRelay
