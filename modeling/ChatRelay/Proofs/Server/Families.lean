import Mathlib.Data.List.Basic
import Mathlib.Data.List.Induction
import Mathlib.Logic.Relation
import ChatRelay.Server.Tasks
/-!
# Runs of a task family

A run consists of creating and cancelling sets, spawning, waking and polling
tasks, and advancing the clock, in any order. The clock only advances while no
task is ready to be polled. A set is cancelled if and only if it or one of its
ancestors was cancelled in the run.
-/

namespace ChatRelay

namespace TaskFamily

theorem getElem?_concat {α : Type} (xs : List α) (x : α) (i : Nat) :
    (xs ++ [x])[i]? = if i = xs.length then some x else xs[i]? := by
  rw [List.getElem?_append]
  rcases Nat.lt_trichotomy i xs.length with hlt | rfl | hgt
  · rw [if_pos hlt, if_neg (Nat.ne_of_lt hlt)]
  · simp
  · rw [if_neg (Nat.lt_asymm hgt), if_neg (Nat.ne_of_gt hgt),
      List.getElem?_eq_none (Nat.le_of_lt hgt),
        List.getElem?_eq_none (by simp; omega)]

def parent? (f : TaskFamily) (set : Nat) : Option Nat :=
  f.sets[set]?.bind TaskSet.parent

/-- Whether the set itself was cancelled. -/
def isMarked (f : TaskFamily) (set : Nat) : Bool :=
  f.sets[set]?.any TaskSet.cancelled

theorem cancelledIn_concat (wanted : Nat) (sets : List TaskSet)
    (last : TaskSet) :
    cancelledIn wanted (sets ++ [last]).reverse =
      if wanted = sets.length then last.cancelled || last.parent.any fun p =>
        cancelledIn p sets.reverse
      else cancelledIn wanted sets.reverse := by
  rw [List.reverse_append, List.reverse_singleton, List.singleton_append,
    cancelledIn, List.length_reverse]
  cases last.parent <;> rfl

theorem cancelledIn_eq (sets : List TaskSet)
    (hearlier : ∀ (i : Nat) (s : TaskSet) (p : Nat), sets[i]? = some s →
      s.parent = some p → p < i)
    (wanted : Nat) :
    cancelledIn wanted sets.reverse =
      sets[wanted]?.any fun s => s.cancelled || s.parent.any
        fun p => cancelledIn p sets.reverse := by
  induction sets using List.reverseRecOn generalizing wanted with
  | nil => rfl
  | append_singleton sets last ih =>
      -- the parents of these sets are not the last one
      have hparents {i : Nat} {s : TaskSet}
          (hs : (sets ++ [last])[i]? = some s) :
          (s.parent.any fun p => cancelledIn p (sets ++ [last]).reverse) =
            s.parent.any fun p => cancelledIn p sets.reverse := by
        have hi : i < sets.length + 1 := by
          simpa using (List.getElem?_eq_some_iff.mp hs).1
        cases hp : s.parent with
        | none => rfl
        | some p =>
            have hlt := hearlier i s p hs hp
            simp only [Option.any_some]
            rw [cancelledIn_concat, if_neg (by omega)]
      rw [cancelledIn_concat]
      by_cases hw : wanted = sets.length
      · have hlast : (sets ++ [last])[wanted]? = some last := by
          rw [getElem?_concat, if_pos hw]
        rw [if_pos hw, hlast, Option.any_some, hparents hlast]
      · have hsame : (sets ++ [last])[wanted]? = sets[wanted]? := by
          rw [getElem?_concat, if_neg hw]
        rw [if_neg hw, ih fun i s p hs => hearlier i s p (by
          rw [List.getElem?_append_left (List.getElem?_eq_some_iff.mp hs).1,
            hs])]
        rw [hsame]
        cases hs : sets[wanted]? with
        | none => rfl
        | some s => simp only [Option.any_some, hparents (hsame.trans hs)]

/-- Every set was created after its parent. -/
def Ordered (f : TaskFamily) : Prop := ∀ set p, f.parent? set = some p → p < set

theorem isCancelled_eq {f : TaskFamily} (h : f.Ordered) (set : Nat) :
    f.isCancelled set =
      (f.isMarked set || (f.parent? set).any f.isCancelled) := by
  have hearlier (i : Nat) (s : TaskSet) (p : Nat) (hs : f.sets[i]? = some s)
      (hp : s.parent = some p) : p < i := by
    apply h i p
    rw [parent?, hs, Option.bind_some, hp]
  simp only [isCancelled, isMarked, parent?]
  rw [cancelledIn_eq f.sets hearlier]
  cases f.sets[set]? <;> rfl

/-- A set is cancelled if and only if it or one of its ancestors is marked. -/
theorem isCancelled_iff {f : TaskFamily} (h : f.Ordered) (set : Nat) :
    f.isCancelled set = true ↔
      ∃ a, Relation.ReflTransGen (fun p s => f.parent? s = some p) a set ∧
        f.isMarked a = true := by
  constructor
  · induction set using Nat.strongRecOn with
    | ind set ih =>
        intro hset
        rw [isCancelled_eq h, Bool.or_eq_true] at hset
        rcases hset with hmarked | hparent
        · exact ⟨set, .refl, hmarked⟩
        · obtain ⟨p, hp, hcancelled⟩ := (Option.any_eq_true _ _).mp hparent
          obtain ⟨a, habove, hmarked⟩ := ih p (h set p hp) hcancelled
          exact ⟨a, habove.tail hp, hmarked⟩
  · rintro ⟨a, habove, hmarked⟩
    induction habove with
    | refl => rw [isCancelled_eq h, hmarked, Bool.true_or]
    | tail _ hp ih =>
      rw [isCancelled_eq h, hp, Option.any_some, ih, Bool.or_true]

end TaskFamily

/-- A task family and the current time. -/
structure FamilyRun where
  family : TaskFamily := {}
  now : Time := 0
  deriving DecidableEq, Repr

namespace FamilyRun

/-- The steps of a task family. -/
inductive Step where
  | child (parent : Nat)
  /-- Spawn a task with an optional duration. -/
  | spawn (set : Nat) (duration : Option Time)
  | cancel (set : Nat)
  | close (set : Nat)
  /-- The own condition of a task becomes true. -/
  | wake (task : Nat)
  /-- A task is polled. The flag decides whether its own condition or the
  cancellation is observed first. -/
  | poll (task : Nat) (dueFirst : Bool)
  | pass (time : Time)
  deriving DecidableEq, Repr

def HasSet (c : FamilyRun) (set : Nat) : Prop := set < c.family.sets.length

instance (c : FamilyRun) (set : Nat) : Decidable (c.HasSet set) :=
  inferInstanceAs (Decidable (set < c.family.sets.length))

/-- No task is ready to be polled before the given duration has passed. -/
def isIdleFor (c : FamilyRun) (time : Time) : Bool :=
  c.family.tasks.all fun t =>
    !t.isRunning || !c.family.isCancelled t.set && t.due.all fun due =>
      c.now + time ≤ due

def step (c : FamilyRun) : Step → FamilyRun
  | .child parent =>
    if c.HasSet parent then { c with family := (c.family.child parent).2 }
    else c
  | .spawn set duration =>
    if c.HasSet set then
      { c with family := (c.family.addTask c.now set duration).2 } else c
  | .cancel set => { c with family := c.family.markCancelled set }
  | .close set =>
    if c.HasSet set then { c with family := c.family.close } else c
  | .wake task => { c with family := c.family.wake c.now task }
  | .poll task dueFirst =>
    { c with family := c.family.poll c.now dueFirst task }
  | .pass time => if c.isIdleFor time then { c with now := c.now + time } else c

def runFrom (c : FamilyRun) (steps : List Step) : FamilyRun :=
  steps.foldl step c

/-- Run steps on a family with a root set, from time zero. -/
def run (steps : List Step) : FamilyRun := runFrom {} steps

/-- The steps of a run, each with the state in front of it. -/
def trace (c : FamilyRun) : List Step → List (Step × FamilyRun)
  | [] => []
  | x :: rest => (x, c) :: trace (c.step x) rest

theorem run_concat (steps : List Step) (x : Step) :
    run (steps ++ [x]) = (run steps).step x := by
  rw [run, runFrom, List.foldl_concat, run, runFrom]

theorem trace_concat (c : FamilyRun) (steps : List Step) (x : Step) :
    c.trace (steps ++ [x]) = c.trace steps ++ [(x, c.runFrom steps)] := by
  induction steps generalizing c with
  | nil => rfl
  | cons y steps ih => exact congrArg ((y, c) :: ·) (ih (c.step y))

/-- A step occurred in a state with a given property. -/
def Occurs (steps : List Step) (x : Step) (P : FamilyRun → Prop) : Prop :=
  ∃ c, (x, c) ∈ trace {} steps ∧ P c

theorem not_occurs_nil (x : Step) (P : FamilyRun → Prop) : ¬ Occurs [] x P := by
  rintro ⟨c, h, -⟩
  exact List.not_mem_nil h

theorem occurs_concat (steps : List Step) (x y : Step) (P : FamilyRun → Prop) :
    Occurs (steps ++ [x]) y P ↔ Occurs steps y P ∨ x = y ∧ P (run steps) := by
  simp only [Occurs, trace_concat, List.mem_append, List.mem_singleton,
    Prod.mk.injEq, or_and_right, exists_or, and_assoc]
  refine or_congr_right ⟨?_, ?_⟩
  · rintro ⟨c, rfl, rfl, h⟩
    exact ⟨rfl, h⟩
  · rintro ⟨rfl, h⟩
    exact ⟨_, rfl, rfl, h⟩

/-- A set was created as a child of another. -/
def IsChild (steps : List Step) (parent set : Nat) : Prop :=
  Occurs steps (.child parent) fun c => c.HasSet parent ∧
    c.family.sets.length = set

/-- A set was cancelled at the given time. -/
def CancelledAt (steps : List Step) (set : Nat) (k : Time) : Prop :=
  Occurs steps (.cancel set) fun c => c.HasSet set ∧ c.now = k

/-- A set or one of its ancestors was cancelled at the given time. -/
def CancelledFrom (steps : List Step) (set : Nat) (k : Time) : Prop :=
  ∃ a, Relation.ReflTransGen (IsChild steps) a set ∧ CancelledAt steps a k

/-- A task was spawned in a set, with its start and its duration. -/
def Spawned (steps : List Step) (task set : Nat) (start : Time)
    (duration : Option Time) : Prop :=
  Occurs steps (.spawn set duration) fun c =>
    c.HasSet set ∧ c.family.tasks.length = task ∧ c.now = start

/-- A task can complete at the given time: its duration has elapsed, or it was
woken. -/
inductive Due (steps : List Step) (task : Nat) (start : Time)
    (duration : Option Time) : Time → Prop
  | elapsed {wait : Time} (h : duration = some wait) :
    Due steps task start duration (start.after wait)
  | woken {k : Time} (h : Occurs steps (.wake task) fun c =>
      task < c.family.tasks.length ∧ c.now = k) :
        Due steps task start duration k

/-- A set was closed. -/
def Closed (steps : List Step) (set : Nat) : Prop :=
  Occurs steps (.close set) fun c => c.HasSet set

def setsAfter (c : FamilyRun) : Step → List TaskSet
  | .child p =>
    if c.HasSet p then c.family.sets ++ [{ parent := some p }]
    else c.family.sets
  | .cancel set =>
    c.family.sets.modify set fun s => { s with cancelled := true }
  | _ => c.family.sets

theorem sets_step (c : FamilyRun) (x : Step) :
    (c.step x).family.sets = c.setsAfter x := by
  cases x with
  | cancel set => rfl
  | wake task => rfl
  | poll task dueFirst => rfl
  | child p | spawn set duration | close set | pass time =>
      simp only [step, setsAfter]
      split <;> rfl

theorem parent?_step (c : FamilyRun) (x : Step) (set p : Nat) :
    (c.step x).family.parent? set = some p ↔
      c.family.parent? set = some p ∨
        x = .child p ∧ c.HasSet p ∧ c.family.sets.length = set := by
  rw [TaskFamily.parent?, sets_step, setsAfter.eq_def]
  cases x with
  | child q =>
      by_cases hq : c.HasSet q
      · simp only [if_pos hq, TaskFamily.getElem?_concat, TaskFamily.parent?,
          Step.child.injEq]
        by_cases hset : set = c.family.sets.length
        · have hnew : q = p ↔ q = p ∧ c.HasSet p :=
            ⟨fun h => ⟨h, h ▸ hq⟩, And.left⟩
          simpa [hset] using hnew
        · simp [hset, Ne.symm hset]
      · have hne : ¬ (q = p ∧ c.HasSet p ∧ c.family.sets.length = set) := by
          rintro ⟨rfl, h, -⟩
          exact hq h
        simp [hq, hne, TaskFamily.parent?]
  | cancel k =>
      simp only [TaskFamily.parent?, List.getElem?_modify]
      cases c.family.sets[set]? with
      | none => simp
      | some s => by_cases hk : k = set <;> simp [hk]
  | spawn set duration | close set | wake task | poll task dueFirst
  | pass time =>
      simp [TaskFamily.parent?]

theorem isMarked_step (c : FamilyRun) (x : Step) (set : Nat) :
    (c.step x).family.isMarked set = true ↔
      c.family.isMarked set = true ∨ x = .cancel set ∧ c.HasSet set := by
  rw [TaskFamily.isMarked, sets_step, setsAfter.eq_def]
  cases x with
  | child q =>
      by_cases hq : c.HasSet q
      · simp only [if_pos hq, TaskFamily.getElem?_concat, TaskFamily.isMarked]
        by_cases hset : set = c.family.sets.length <;> simp [hset]
      · simp [hq, TaskFamily.isMarked]
  | cancel k =>
      simp only [TaskFamily.isMarked, List.getElem?_modify, HasSet]
      by_cases hset : set < c.family.sets.length
      · rw [List.getElem?_eq_getElem hset]
        by_cases hk : k = set <;> simp [hk, hset]
      · simp [hset]
  | spawn set duration | close set | wake task | poll task dueFirst
  | pass time =>
      simp [TaskFamily.isMarked]

theorem closed_step (c : FamilyRun) (x : Step) :
    (c.step x).family.closed = true ↔
      c.family.closed = true ∨ ∃ set, x = .close set ∧ c.HasSet set := by
  cases x with
  | close set =>
      by_cases hset : c.HasSet set
      · simp [step, hset, TaskFamily.close]
      · simp [step, hset]
  | child p | spawn set duration | pass time =>
      simp only [step]
      split <;> simp [TaskFamily.child, TaskFamily.addTask]
  | cancel set | wake task | poll task dueFirst =>
      simp [step, TaskFamily.markCancelled, TaskFamily.wake, TaskFamily.poll]

theorem parent?_run (steps : List Step) (set p : Nat) :
    (run steps).family.parent? set = some p ↔ IsChild steps p set := by
  induction steps using List.reverseRecOn with
  | nil =>
      constructor
      · intro h
        cases set <;> exact nomatch h
      · intro h
        exact absurd h (not_occurs_nil _ _)
  | append_singleton steps x ih =>
      rw [run_concat, parent?_step, ih]
      exact (occurs_concat steps x _ _).symm

theorem isMarked_run (steps : List Step) (set : Nat) :
    (run steps).family.isMarked set = true ↔ ∃ k, CancelledAt steps set k := by
  induction steps using List.reverseRecOn with
  | nil =>
      constructor
      · intro h
        cases set <;> exact nomatch h
      · rintro ⟨k, h⟩
        exact absurd h (not_occurs_nil _ _)
  | append_singleton steps x ih =>
      rw [run_concat, isMarked_step, ih]
      simp only [CancelledAt, occurs_concat, exists_or]
      simp

theorem closed_run (steps : List Step) :
    (run steps).family.closed = true ↔ ∃ set, Closed steps set := by
  induction steps using List.reverseRecOn with
  | nil =>
      constructor
      · exact nofun
      · rintro ⟨set, h⟩
        exact absurd h (not_occurs_nil _ _)
  | append_singleton steps x ih =>
      rw [run_concat, closed_step, ih]
      simp only [Closed, occurs_concat, exists_or]

/-- A set was created after its parent. -/
theorem IsChild.lt {steps : List Step} {p set : Nat} (h : IsChild steps p set) :
    p < set := by
  obtain ⟨c, -, hp, rfl⟩ := h
  exact hp

/-- A set is cancelled if and only if it or one of its ancestors was cancelled
in the run. -/
theorem isCancelled_run (steps : List Step) (set : Nat) :
    (run steps).family.isCancelled set = true ↔ ∃ k,
      CancelledFrom steps set k := by
  have hordered : (run steps).family.Ordered :=
    fun set p h => ((parent?_run steps set p).mp h).lt
  rw [TaskFamily.isCancelled_iff hordered]
  simp only [parent?_run, isMarked_run, CancelledFrom]
  constructor
  · rintro ⟨a, habove, k, hk⟩
    exact ⟨k, a, habove, hk⟩
  · rintro ⟨k, a, habove, hk⟩
    exact ⟨a, habove, k, hk⟩

/-- Sets and tasks are never removed, and the clock never goes back. -/
structure Precedes (c c' : FamilyRun) : Prop where
  sets : c.family.sets.length ≤ c'.family.sets.length
  tasks : c.family.tasks.length ≤ c'.family.tasks.length
  now : c.now ≤ c'.now

theorem Precedes.refl (c : FamilyRun) : c.Precedes c :=
  ⟨Nat.le_refl _, Nat.le_refl _, Nat.le_refl _⟩

theorem Precedes.trans {c c' c'' : FamilyRun} (h : c.Precedes c')
    (h' : c'.Precedes c'') : c.Precedes c'' :=
  ⟨Nat.le_trans h.sets h'.sets, Nat.le_trans h.tasks h'.tasks,
    Nat.le_trans h.now h'.now⟩

theorem precedes_step (c : FamilyRun) (x : Step) : c.Precedes (c.step x) := by
  cases x with
  | child p | spawn set duration | close set | pass time =>
      simp only [step]
      split
      · constructor <;>
          simp [TaskFamily.child, TaskFamily.addTask, TaskFamily.close]
      · exact .refl c
  | cancel set | wake task | poll task dueFirst =>
      constructor <;>
        simp [step, TaskFamily.markCancelled, TaskFamily.wake, TaskFamily.poll]

theorem precedes_run {steps : List Step} {x : Step} {c : FamilyRun}
    (h : (x, c) ∈ trace {} steps) :
    c.Precedes (run steps) := by
  induction steps using List.reverseRecOn with
  | nil => exact absurd h List.not_mem_nil
  | append_singleton steps y ih =>
      rw [trace_concat] at h
      rw [run_concat]
      rcases List.mem_append.mp h with hearlier | hlast
      · exact (ih hearlier).trans (precedes_step _ y)
      · obtain ⟨-, rfl⟩ := Prod.mk.inj (List.mem_singleton.mp hlast)
        exact precedes_step _ y

theorem CancelledAt.le {steps : List Step} {set : Nat} {k : Time}
    (h : CancelledAt steps set k) :
    k ≤ (run steps).now := by
  obtain ⟨c, hc, -, rfl⟩ := h
  exact (precedes_run hc).now

theorem CancelledFrom.le {steps : List Step} {set : Nat} {k : Time}
    (h : CancelledFrom steps set k) :
    k ≤ (run steps).now := by
  obtain ⟨a, -, hk⟩ := h
  exact hk.le

theorem IsChild.concat {steps : List Step} {p set : Nat}
    (h : IsChild steps p set) (x : Step) :
    IsChild (steps ++ [x]) p set := (occurs_concat steps x _ _).mpr (.inl h)

theorem CancelledFrom.concat {steps : List Step} {set : Nat} {k : Time}
    (h : CancelledFrom steps set k) (x : Step) :
    CancelledFrom (steps ++ [x]) set k := by
  obtain ⟨a, habove, hk⟩ := h
  have hmade : IsChild steps ≤ IsChild (steps ++ [x]) := fun _ _ h => h.concat x
  exact ⟨a, Relation.ReflTransGen.mono hmade a set habove,
    (occurs_concat steps x _ _).mpr (.inl hk)⟩

/-- The ancestors of an existing set do not change. -/
theorem above_of_concat {steps : List Step} {x : Step} {a set : Nat}
    (h : Relation.ReflTransGen (IsChild (steps ++ [x])) a set)
    (hset : (run steps).HasSet set) :
    Relation.ReflTransGen (IsChild steps) a set := by
  induction h with
  | refl => exact .refl
  | tail _ hmade ih =>
      rcases (occurs_concat steps x _ _).mp hmade with hold | ⟨-, hp, hnew⟩
      · exact (ih (Nat.lt_trans (IsChild.lt hold) hset)).tail hold
      · exact absurd hset (hnew ▸ Nat.lt_irrefl _)

/-- An existing set is not cancelled retroactively. -/
theorem CancelledFrom.of_concat {steps : List Step} {x : Step} {set : Nat}
    {k : Time} (h : CancelledFrom (steps ++ [x]) set k)
    (hset : (run steps).HasSet set) :
    CancelledFrom steps set k ∨ k = (run (steps ++ [x])).now := by
  obtain ⟨a, habove, hk⟩ := h
  rcases (occurs_concat steps x _ _).mp hk with hold | ⟨rfl, -, rfl⟩
  · exact .inl ⟨a, above_of_concat habove hset, hold⟩
  · rw [run_concat]
    exact .inr rfl

end FamilyRun
end ChatRelay
