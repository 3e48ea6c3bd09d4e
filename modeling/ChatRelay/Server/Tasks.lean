import ChatRelay.Route.Service
/-!
# Families of tasks

Tasks run in sets, which form a family. Cancelling a set cancels its descendants
but not its ancestors, whereas the tasks of all sets are joined together. A task
that is due or whose set is cancelled ends when it is polled.
-/

namespace ChatRelay

inductive TaskState where
  | running
  /-- It completed. -/
  | finished
  /-- It was dropped because its set was cancelled. -/
  | dropped
  deriving DecidableEq, Repr

structure Task where
  set : Nat
  /-- When it was spawned. -/
  start : Time
  /-- When it can complete, if ever. -/
  due : Option Time
  state : TaskState := .running
  deriving DecidableEq, Repr

namespace Task

def isRunning (t : Task) : Bool := t.state matches .running

/-- Whether a task can complete. -/
def isDue (now : Time) (t : Task) : Bool := t.due.any fun due => due ≤ now

/-- The task's own condition becomes true. -/
def wake (now : Time) (t : Task) : Task :=
  if t.isRunning && !t.isDue now then { t with due := some now } else t

/-- Poll a task. If it is due and its set is cancelled, the flag decides which
of the two is observed first. -/
def poll (now : Time) (cancelled dueFirst : Bool) (t : Task) : Task :=
  if !t.isRunning then t
  else if t.isDue now && (dueFirst || !cancelled) then
    { t with state := .finished }
  else if cancelled then { t with state := .dropped }
  else t

theorem isRunning_iff (t : Task) : t.isRunning = true ↔ t.state = .running := by
  unfold isRunning
  cases t.state <;> simp

theorem isDue_iff (now : Time) (t : Task) :
    t.isDue now = true ↔ ∃ d ∈ t.due, d ≤ now := by
  cases h : t.due <;> simp [isDue, h]

/-- A task that has ended does not change. -/
theorem wake_over {t : Task} (h : t.isRunning = false) (now : Time) :
    t.wake now = t := by
  simp [wake, h]

theorem poll_over {t : Task} (h : t.isRunning = false) (now : Time)
    (cancelled dueFirst : Bool) :
    t.poll now cancelled dueFirst = t := by
  simp [poll, h]

end Task

structure TaskSet where
  /-- A set that was created earlier. -/
  parent : Option Nat
  /-- Whether the set itself was cancelled. -/
  cancelled : Bool := false
  deriving DecidableEq, Repr

structure TaskFamily where
  sets : List TaskSet := [{ parent := none }]
  tasks : List Task := []
  /-- Whether no more tasks are expected. -/
  closed : Bool := false
  deriving DecidableEq, Repr, Inhabited

namespace TaskFamily

/-- The root set of a family. -/
def root : Nat := 0

/-- Create a child set, and return its number. -/
def child (f : TaskFamily) (parent : Nat) : Nat × TaskFamily :=
  (f.sets.length, { f with sets := f.sets ++ [{ parent := some parent }] })

/-- Whether a set or one of its ancestors is cancelled. The list is in reverse,
so every set comes before its parent. -/
def cancelledIn (wanted : Nat) : List TaskSet → Bool
  | [] => false
  | s :: older =>
    if wanted = older.length then
      s.cancelled || (s.parent.elim false fun p => cancelledIn p older)
    else cancelledIn wanted older

/-- Whether a set or one of its ancestors is cancelled. -/
def isCancelled (f : TaskFamily) (set : Nat) : Bool :=
  cancelledIn set f.sets.reverse

/-- Add a task with an optional duration to a set, and return its number. -/
def addTask (f : TaskFamily) (now : Time) (set : Nat) (duration : Option Time) :
    Nat × TaskFamily :=
  let task : Task := { set, start := now, due := duration.map (Time.after now) }
  (f.tasks.length, { f with tasks := f.tasks ++ [task] })

def poll (now : Time) (dueFirst : Bool) (f : TaskFamily) (task : Nat) :
    TaskFamily :=
  { f with
    tasks := f.tasks.modify task fun t =>
      t.poll now (f.isCancelled t.set) dueFirst }

def pollAll (f : TaskFamily) (now : Time) : TaskFamily :=
  (List.range f.tasks.length).foldl (poll now false) f

/-- Add a task, poll it, and return its number. -/
def spawn (f : TaskFamily) (now : Time) (set : Nat) (duration : Option Time) :
    Nat × TaskFamily :=
  let (task, f) := f.addTask now set duration
  (task, f.poll now false task)

/-- Poll all tasks after the clock has advanced. -/
def elapse (f : TaskFamily) (now : Time) : TaskFamily := f.pollAll now

/-- The own condition of a task becomes true. -/
def wake (f : TaskFamily) (now : Time) (task : Nat) : TaskFamily :=
  { f with tasks := f.tasks.modify task (Task.wake now) }

/-- Complete a task that is still running. -/
def finish (f : TaskFamily) (now : Time) (task : Nat) : TaskFamily :=
  (f.wake now task).poll now true task

def markCancelled (f : TaskFamily) (set : Nat) : TaskFamily :=
  { f with sets := f.sets.modify set fun s => { s with cancelled := true } }

/-- Cancel a set and poll all tasks. -/
def cancel (f : TaskFamily) (now : Time) (set : Nat) : TaskFamily :=
  (f.markCancelled set).pollAll now

/-- Expect no more tasks. -/
def close (f : TaskFamily) : TaskFamily := { f with closed := true }

/-- Whether the family is closed and no task is running. -/
def isSettled (f : TaskFamily) : Bool := f.closed && !f.tasks.any Task.isRunning

def isDone (f : TaskFamily) (task : Nat) : Bool :=
  f.tasks[task]?.elim false fun t => !t.isRunning

end TaskFamily
end ChatRelay
