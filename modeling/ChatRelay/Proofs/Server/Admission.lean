import Mathlib.Data.List.Basic
import Mathlib.Data.List.Induction
import Mathlib.Data.List.Nodup
import ChatRelay.Server.Listener
/-!
# Admission control

In every run of a listener each permit is free, held by the accept loop, or held
by exactly one connection being served. Hence the number of connections is
bounded by the number of permits and counted correctly.
-/

namespace ChatRelay

theorem Task.isRunning_finish (t : Task) (now : Time) (cancelled : Bool) :
    ((t.wake now).poll now cancelled true).isRunning = false := by
  cases hrunning : t.isRunning with
  | false => rw [wake_over hrunning, poll_over hrunning, hrunning]
  | true =>
      have hdue : (t.wake now).isDue now = true := by
        unfold wake
        split
        · simp [isDue]
        · next h => simpa [hrunning] using h
      have hstill : (t.wake now).isRunning = true := by
        unfold wake
        split <;> exact hrunning
      simp [poll, hdue, hstill]
      rfl

theorem Task.isRunning_poll_cancelled (t : Task) (now : Time)
    (dueFirst : Bool) :
    (t.poll now true dueFirst).isRunning = false := by
  cases hrunning : t.isRunning with
  | false => rw [poll_over hrunning, hrunning]
  | true =>
      simp only [poll, hrunning]
      split
      · exact absurd ‹_› (by simp)
      · split <;> rfl

namespace TaskFamily

theorem isDone_poll_of_ne (f : TaskFamily) (now : Time) (dueFirst : Bool)
    {task other : Nat} (h : other ≠ task) :
    (f.poll now dueFirst task).isDone other = f.isDone other := by
  simp [isDone, poll, Ne.symm h]

theorem isDone_wake_of_ne (f : TaskFamily) (now : Time) {task other : Nat}
    (h : other ≠ task) :
    (f.wake now task).isDone other = f.isDone other := by
  simp [isDone, wake, Ne.symm h]

theorem isDone_finish_of_ne (f : TaskFamily) (now : Time) {task other : Nat}
    (h : other ≠ task) :
    (f.finish now task).isDone other = f.isDone other := by
  rw [finish, isDone_poll_of_ne _ _ _ h, isDone_wake_of_ne _ _ h]

/-- A task that is completed is done. -/
theorem isDone_finish {f : TaskFamily} {task : Nat} (h : task < f.tasks.length)
    (now : Time) :
    (f.finish now task).isDone task = true := by
  simp [isDone, finish, poll, wake, List.getElem?_eq_getElem h,
    Task.isRunning_finish]

/-- The set of a task is cancelled. -/
def isTaskCancelled (f : TaskFamily) (task : Nat) : Bool :=
  f.tasks[task]?.any fun t => f.isCancelled t.set

theorem isDone_poll_servingPermits {f : TaskFamily} {task : Nat}
    (h : f.isTaskCancelled task = true) (now : Time) (dueFirst : Bool) :
    (f.poll now dueFirst task).isDone task = true := by
  obtain ⟨t, ht, hcancelled⟩ := (Option.any_eq_true _ _).mp h
  simp [isDone, poll, ht, hcancelled, Task.isRunning_poll_cancelled]

end TaskFamily

namespace Listener

/-- The steps of a listener. -/
inductive Step where
  /-- The accept loop takes a permit if one is free. -/
  | acquire
  | accept
  /-- Accepting a connection fails. -/
  | fail
  | endConnection (task : Nat) (how : Ending)
  /-- A task set is marked as cancelled. -/
  | markCancelled (set : Nat)
  /-- The accept loop ends if its set is cancelled. -/
  | endLoop
  | close
  deriving DecidableEq, Repr

def step (l : Listener) : Step → Listener
  | .acquire => l.acquire
  | .accept => l.admit?.elim l Prod.snd
  | .fail => l.fail
  | .endConnection task how => l.endConnection task how
  | .markCancelled set => l.markCancelled set
  | .endLoop => l.endLoop
  | .close => l.close

def run (l : Listener) (steps : List Step) : Listener := steps.foldl step l

/-- The connections being served. -/
def serving (l : Listener) : List AcceptedConnection :=
  l.connections.filter fun c => !l.family.isDone c.task

/-- The permits held by connections. -/
def servingPermits (l : Listener) : Nat :=
  l.serving.countP AcceptedConnection.hasPermit

/-- The permits held by the accept loop. -/
def loopPermits (l : Listener) : Nat := if l.holding then 1 else 0

theorem loopPermits_eq_one {l : Listener} (h : l.holding = true) :
    l.loopPermits = 1 :=
  if_pos h

theorem loopPermits_eq_zero {l : Listener} (h : ¬ l.holding = true) :
    l.loopPermits = 0 :=
  if_neg h

theorem serving_congr {l l' : Listener}
    (hconnections : l'.connections = l.connections)
    (hdone : ∀ c ∈ l.connections,
      l'.family.isDone c.task = l.family.isDone c.task) :
    l'.serving = l.serving := by
  rw [serving, hconnections, serving]
  apply List.filter_congr
  intro c hc
  rw [hdone c hc]

/-- If every connection has a permit, the connections being served hold one
each. -/
theorem servingPermits_eq {l : Listener}
    (hpermits : ∀ c ∈ l.connections, c.hasPermit = l.isLimited)
    (hlimited : l.isLimited = true) : l.servingPermits = l.serving.length := by
  apply List.countP_eq_length.mpr
  intro c hc
  rw [hpermits c (List.mem_of_mem_filter hc), hlimited]

/-- The invariant of a listener with the given number of permits, or without
limit. -/
structure Sound (limit : Option Nat) (l : Listener) : Prop where
  /-- Every connection has its own task. -/
  distinct : (l.connections.map AcceptedConnection.task).Nodup
  known : ∀ c ∈ l.connections, c.task < l.family.tasks.length
  began : 0 < l.family.tasks.length
  /-- The accept loop has a task of its own. -/
  others : ∀ c ∈ l.connections, c.task ≠ loop
  limited : l.isLimited = limit.isSome
  held : l.holding = true → l.isLimited = true
  permits : ∀ c ∈ l.connections, c.hasPermit = l.isLimited
  counted : l.active = l.serving.length
  total : ∀ n ∈ limit, l.free + l.servingPermits + l.loopPermits = n

namespace Sound

variable {limit : Option Nat} {l : Listener}

theorem nodup (h : l.Sound limit) : l.serving.Nodup :=
  h.distinct.of_map.filter _

theorem withFamily (h : l.Sound limit) {family : TaskFamily}
    (hmore : l.family.tasks.length ≤ family.tasks.length)
    (hdone : ∀ c ∈ l.connections,
      family.isDone c.task = l.family.isDone c.task) :
    ({ l with family } : Listener).Sound limit := by
  have hserving : ({ l with family } : Listener).serving = l.serving :=
    serving_congr rfl hdone
  exact
    { h with
      known := fun c hc => Nat.lt_of_lt_of_le (h.known c hc) hmore
      began := Nat.lt_of_lt_of_le h.began hmore
      counted := h.counted.trans (congrArg List.length hserving).symm
      total := by
        rw [servingPermits, hserving]
        exact h.total }

theorem acquire (h : l.Sound limit) : l.acquire.Sound limit := by
  unfold Listener.acquire
  split
  · next hfree =>
      obtain ⟨hlimited, -, hholding, hpos⟩ := hfree
      exact
        { h with
          held := fun _ => hlimited
          total := by
            intro n hn
            have htotal := h.total n hn
            rw [loopPermits_eq_zero hholding] at htotal
            change l.free - 1 + l.servingPermits + 1 = n
            omega }
  · exact h

theorem returnPermit (h : l.Sound limit) : l.returnPermit.Sound limit := by
  unfold Listener.returnPermit
  split
  · next hholding =>
      exact
        { h with
          held := nofun
          total := by
            intro n hn
            have htotal := h.total n hn
            rw [loopPermits_eq_one hholding] at htotal
            change l.free + 1 + l.servingPermits + 0 = n
            omega }
  · exact h

theorem endLoop (h : l.Sound limit) : l.endLoop.Sound limit := by
  have hpolled : ({ l with family := l.family.poll 0 false loop } :
      Listener).Sound limit := by
    apply h.withFamily
    · simp [TaskFamily.poll]
    · intro c hc
      exact TaskFamily.isDone_poll_of_ne _ _ _ (h.others c hc)
  unfold Listener.endLoop
  simp only
  split
  · exact hpolled
  · exact hpolled.returnPermit

end Sound

/-- A listener after accepting a connection. -/
def admitted (l : Listener) : Listener :=
  { l with
    holding := false
    active := l.active + 1
    connections := l.connections ++ [⟨l.family.tasks.length, l.holding⟩]
    family :=
      ((l.family.child TaskFamily.root).2.addTask 0
        l.family.sets.length none).2 }

theorem admit?_eq (l : Listener) :
    l.admit? = if l.isReady then some (l.family.tasks.length, l.admitted)
      else none :=
  rfl

theorem isDone_admitted (l : Listener) {task : Nat}
    (h : task < l.family.tasks.length) :
    l.admitted.family.isDone task = l.family.isDone task := by
  simp [admitted, TaskFamily.isDone, TaskFamily.child, TaskFamily.addTask,
    List.getElem?_append_left h]

/-- The task of a new connection is not done. -/
theorem isDone_admitted_last (l : Listener) :
    l.admitted.family.isDone l.family.tasks.length = false := by
  simp [admitted, TaskFamily.isDone, TaskFamily.child, TaskFamily.addTask]
  rfl

/-- A listener after the task of a connection ended and returned its permit. -/
def released (l : Listener) (c : AcceptedConnection)
    (how : Ending) : Listener :=
  { l.release c with family := l.familyAfter c.task how }

theorem length_familyAfter (l : Listener) (task : Nat) (how : Ending) :
    (l.familyAfter task how).tasks.length = l.family.tasks.length := by
  cases how <;>
    simp [familyAfter, TaskFamily.finish, TaskFamily.markCancelled,
      TaskFamily.poll, TaskFamily.wake]

theorem isDone_familyAfter_of_ne (l : Listener) {task other : Nat}
    (how : Ending) (h : other ≠ task) :
    (l.familyAfter task how).isDone other = l.family.isDone other := by
  cases how with
  | done => exact l.family.isDone_finish_of_ne 0 h
  | broken => exact l.family.isDone_finish_of_ne 0 h
  | dropped => exact l.family.isDone_poll_of_ne 0 false h

/-- A task is done after it completed, or after it was polled with its set
cancelled. -/
theorem isDone_familyAfter {l : Listener} {task : Nat}
    (h : task < l.family.tasks.length) {how : Ending}
    (hpermits : how = .dropped → l.family.isTaskCancelled task = true) :
    (l.familyAfter task how).isDone task = true := by
  cases how with
  | done => exact TaskFamily.isDone_finish h 0
  | broken => exact TaskFamily.isDone_finish h 0
  | dropped =>
    exact TaskFamily.isDone_poll_servingPermits (hpermits rfl) 0 false

theorem mem_serving {l : Listener} {c : AcceptedConnection} :
    c ∈ l.serving ↔ c ∈ l.connections ∧ l.family.isDone c.task = false := by
  rw [serving, List.mem_filter, Bool.not_eq_true']

/-- Ending a connection releases a connection being served, or has no effect. -/
theorem endConnection_cases (l : Listener) (task : Nat) (how : Ending) :
    l.endConnection task how = l ∨ ∃ c ∈ l.serving, c.task = task ∧
      (l.familyAfter c.task how).isDone c.task = true ∧
      l.endConnection task how = l.released c how := by
  unfold endConnection
  split
  · exact .inl rfl
  · next c hfound =>
      obtain rfl : c.task = task := by simpa using List.find?_some hfound
      simp only
      split
      · next hends =>
          obtain ⟨hserved, hend⟩ := (Bool.and_eq_true _ _).mp hends
          have hc : c ∈ l.serving :=
            mem_serving.mpr
              ⟨List.mem_of_find?_eq_some hfound, by simpa using hserved⟩
          exact .inr ⟨c, hc, rfl, hend, rfl⟩
      · exact .inl rfl

namespace Sound

variable {limit : Option Nat} {l : Listener}

theorem eq_of_task (h : l.Sound limit) {c c' : AcceptedConnection}
    (hc : c ∈ l.connections) (hc' : c' ∈ l.connections)
    (htask : c.task = c'.task) : c = c' :=
  List.inj_on_of_nodup_map h.distinct hc hc' htask

theorem find?_eq (h : l.Sound limit) {c : AcceptedConnection}
    (hc : c ∈ l.connections) :
    l.connections.find? (fun c' => c'.task = c.task) = some c := by
  have hsome : (l.connections.find? fun c' => c'.task = c.task).isSome :=
    List.find?_isSome.mpr ⟨c, hc, by simp⟩
  obtain ⟨c', hc'⟩ := Option.isSome_iff_exists.mp hsome
  have htask : c'.task = c.task := by simpa using List.find?_some hc'
  rw [hc', h.eq_of_task (List.mem_of_find?_eq_some hc') hc htask]

theorem serving_admitted (h : l.Sound limit) :
    l.admitted.serving = l.serving ++ [⟨l.family.tasks.length, l.holding⟩] := by
  have hold : (l.connections.filter fun c => !l.admitted.family.isDone c.task) =
      l.serving := by
    apply List.filter_congr
    intro c hc
    rw [l.isDone_admitted (h.known c hc)]
  have hnew :
      ([⟨l.family.tasks.length, l.holding⟩] : List AcceptedConnection).filter
      (fun c => !l.admitted.family.isDone c.task) =
        [⟨l.family.tasks.length, l.holding⟩] := by
    simp [l.isDone_admitted_last]
  rw [← hold, ← hnew]
  exact List.filter_append _ _

theorem admitted (h : l.Sound limit) (hready : l.isReady = true) :
    l.admitted.Sound limit := by
  have hpermit : l.holding = l.isLimited := by
    have hwaiting : l.isLimited = true → l.holding = true := by
      simp only [isReady, Bool.and_eq_true, Bool.or_eq_true, Bool.not_eq_true']
        at hready
      intro hlimited
      simpa [hlimited] using hready.2
    exact Bool.eq_iff_iff.mpr ⟨h.held, hwaiting⟩
  have hmore : l.admitted.family.tasks.length = l.family.tasks.length + 1 :=
    List.length_append
  exact
    { distinct := by
        change ((l.connections ++ [_]).map AcceptedConnection.task).Nodup
        rw [List.map_append, List.nodup_append]
        refine ⟨h.distinct, List.nodup_singleton _, ?_⟩
        rintro task htask _ hnew rfl
        obtain ⟨c, hc, rfl⟩ := List.mem_map.mp htask
        obtain hlast : c.task = l.family.tasks.length :=
          List.mem_singleton.mp hnew
        exact Nat.lt_irrefl _ (hlast ▸ h.known c hc)
      known := by
        intro c hc
        rw [hmore]
        rcases List.mem_append.mp hc with hold | hnew
        · exact Nat.lt_succ_of_lt (h.known c hold)
        · rw [List.mem_singleton.mp hnew]
          exact Nat.lt_succ_self _
      began := hmore ▸ Nat.succ_pos _
      others := by
        intro c hc
        rcases List.mem_append.mp hc with hold | hnew
        · exact h.others c hold
        · rw [List.mem_singleton.mp hnew]
          exact Nat.ne_of_gt h.began
      limited := h.limited
      held := nofun
      permits := by
        intro c hc
        rcases List.mem_append.mp hc with hold | hnew
        · exact h.permits c hold
        · rw [List.mem_singleton.mp hnew]
          exact hpermit
      counted := by
        rw [h.serving_admitted, List.length_append]
        exact congrArg (· + 1) h.counted
      total := by
        intro n hn
        have hlimited : l.isLimited = true := by
          rw [h.limited, hn, Option.isSome_some]
        have htotal := h.total n hn
        rw [loopPermits_eq_one (hpermit.trans hlimited)] at htotal
        rw [servingPermits, h.serving_admitted, List.countP_append]
        change l.free + (l.servingPermits + _) + 0 = n
        simp [hpermit, hlimited]
        omega }

/-- The other connections are still served. -/
theorem serving_released (h : l.Sound limit) {c : AcceptedConnection}
    (hc : c ∈ l.serving) {how : Ending}
    (hend : (l.familyAfter c.task how).isDone c.task = true) :
    (l.released c how).serving = l.serving.erase c := by
  rw [h.nodup.erase_eq_filter]
  simp only [serving, List.filter_filter]
  apply List.filter_congr
  intro c' hc'
  by_cases hsame : c' = c
  · simp [released, hsame, hend]
  · have hne : c'.task ≠ c.task := fun htask =>
      hsame (h.eq_of_task hc' (mem_serving.mp hc).1 htask)
    simp [released, hsame, isDone_familyAfter_of_ne l how hne]

theorem released (h : l.Sound limit) {c : AcceptedConnection}
    (hc : c ∈ l.serving) {how : Ending}
    (hend : (l.familyAfter c.task how).isDone c.task = true) :
    (l.released c how).Sound limit := by
  have hserving := h.serving_released hc hend
  have hlength := l.length_familyAfter c.task how
  exact
    { distinct := h.distinct
      known := fun c' hc' => hlength.symm ▸ h.known c' hc'
      began := hlength.symm ▸ h.began
      others := h.others
      limited := h.limited
      held := h.held
      permits := h.permits
      counted := by
        rw [hserving, List.length_erase_of_mem hc, ← h.counted]
        rfl
      total := by
        intro n hn
        have hlimited : l.isLimited = true := by
          rw [h.limited, hn, Option.isSome_some]
        have hpermit : c.hasPermit = true :=
          (h.permits c (mem_serving.mp hc).1).trans hlimited
        have htotal := h.total n hn
        have hpos : 0 < l.serving.length := List.length_pos_of_mem hc
        have hpermits :
            (l.released c how).servingPermits = l.serving.length - 1 := by
          rw [@servingPermits_eq (l.released c how) h.permits hlimited,
            hserving, List.length_erase_of_mem hc]
        rw [servingPermits_eq h.permits hlimited] at htotal
        rw [hpermits]
        change (if c.hasPermit then l.free + 1 else l.free) +
          (l.serving.length - 1) + l.loopPermits = n
        rw [if_pos hpermit]
        omega }

/-- Ending a connection being served releases it. -/
theorem endConnection_eq (h : l.Sound limit) {c : AcceptedConnection}
    (hc : c ∈ l.serving) {how : Ending}
    (hpermits : how = .dropped → l.family.isTaskCancelled c.task = true) :
    l.endConnection c.task how = l.released c how := by
  obtain ⟨hmem, hserved⟩ := mem_serving.mp hc
  have hend := isDone_familyAfter (h.known c hmem) hpermits
  unfold endConnection
  rw [h.find?_eq hmem]
  simp [hserved, hend, Listener.released]

theorem step (h : l.Sound limit) (x : Step) : (l.step x).Sound limit := by
  cases x with
  | acquire => exact h.acquire
  | accept =>
      rw [Listener.step, admit?_eq]
      split
      · next hready => exact h.admitted hready
      · exact h
  | fail =>
      rw [Listener.step, Listener.fail]
      split
      · exact h.returnPermit
      · exact h
  | endConnection task how =>
      change (l.endConnection task how).Sound limit
      rcases l.endConnection_cases task how
        with hsame | ⟨c, hc, -, hend, hreleased⟩
      · rw [hsame]
        exact h
      · rw [hreleased]
        exact h.released hc hend
  | markCancelled set => exact h.withFamily (Nat.le_refl _) fun _ _ => rfl
  | endLoop => exact h.endLoop
  | close => exact h.withFamily (Nat.le_refl _) fun _ _ => rfl

theorem run (h : l.Sound limit) (steps : List Step) :
    (l.run steps).Sound limit := by
  induction steps generalizing l with
  | nil => exact h
  | cons x steps ih => exact ih (h.step x)

end Sound

theorem sound_begin {limit : Option Nat} {l : Listener}
    (h : begin? limit = some l) :
    l.Sound limit := by
  unfold begin? at h
  split at h
  · cases h
    exact
      { distinct := List.nodup_nil
        known := nofun
        began := Nat.one_pos
        others := nofun
        limited := rfl
        held := nofun
        permits := nofun
        counted := rfl
        total := by
          rintro n ⟨⟩
          rfl }
  · exact nomatch h

/-- The count is the number of connections being served, with or without a
limit. -/
theorem active_eq_serving {limit : Option Nat} {l : Listener}
    (h : begin? limit = some l) (steps : List Step) :
    (l.run steps).active = (l.run steps).serving.length :=
  ((sound_begin h).run steps).counted

/-- The admission theorem. After every sequence of steps of a listener with `n`
permits: at most `n` connections are served, `active` is their number, and the
free permits, those held by connections and the one held by the accept loop add
up to `n`. An accepted connection is served with a permit. Ending a connection
being served, by completion, panic or cancellation, removes exactly this
connection, decrements the count and frees one permit. Any other end has no
effect. -/
theorem admission_accounted {n : Nat} {l₀ : Listener}
    (h : begin? (some n) = some l₀) (steps : List Step) :
    let l := l₀.run steps
    l.serving.length ≤ n ∧ l.active = l.serving.length ∧
    l.free + l.servingPermits + l.loopPermits = n ∧
    (l.isReady = true →
      (l.step .accept).serving = l.serving ++ [⟨l.family.tasks.length, true⟩]) ∧
    (∀ c ∈ l.serving, ∀ how,
      (how = .dropped → l.family.isTaskCancelled c.task = true) →
      (l.endConnection c.task how).serving = l.serving.erase c ∧
        (l.endConnection c.task how).active + 1 = l.active ∧
        (l.endConnection c.task how).free = l.free + 1) ∧
    ∀ task how, l.endConnection task how = l ∨
      ∃ c ∈ l.serving, c.task = task ∧
        (l.endConnection task how).serving = l.serving.erase c ∧
        (l.endConnection task how).active + 1 = l.active ∧
        (l.endConnection task how).free = l.free + 1 := by
  intro l
  have hsound : l.Sound (some n) := (sound_begin h).run steps
  have htotal := hsound.total n rfl
  have hpermits : l.servingPermits = l.serving.length :=
    servingPermits_eq hsound.permits hsound.limited
  have hreleased (c : AcceptedConnection) (hc : c ∈ l.serving) (how : Ending)
      (hend : (l.familyAfter c.task how).isDone c.task = true) :
      (l.released c how).serving = l.serving.erase c ∧
        (l.released c how).active + 1 = l.active ∧
        (l.released c how).free = l.free + 1 := by
    have hpermit : c.hasPermit = true :=
      (hsound.permits c (mem_serving.mp hc).1).trans hsound.limited
    have hpos : 0 < l.active := hsound.counted ▸ List.length_pos_of_mem hc
    exact ⟨hsound.serving_released hc hend, Nat.sub_add_cancel hpos,
      if_pos hpermit⟩
  refine ⟨by omega, hsound.counted, htotal, ?_, ?_, ?_⟩
  · intro hready
    have hholding : l.holding = true := by
      have hlimited : l.isLimited = true := hsound.limited
      simp only [isReady, hlimited, Bool.not_true, Bool.false_or,
        Bool.and_eq_true] at hready
      exact hready.2
    rw [step, admit?_eq, if_pos hready]
    exact hholding ▸ hsound.serving_admitted
  · intro c hc how hdropped
    rw [hsound.endConnection_eq hc hdropped]
    exact hreleased c hc how
      (isDone_familyAfter (hsound.known c (mem_serving.mp hc).1) hdropped)
  · intro task how
    rcases l.endConnection_cases task how
      with hsame | ⟨c, hc, htask, hend, hended⟩
    · exact .inl hsame
    · rw [hended]
      exact .inr ⟨c, hc, htask, hreleased c hc how hend⟩

def sampleListener : Listener := (begin? (some 1)).getD {}

/-- A connection panics, accepting fails, another connection is accepted, and
the root set is cancelled. -/
def sampleSteps : List Step :=
  [.acquire, .accept, .acquire, .endConnection 1 .broken, .acquire, .fail,
    .acquire, .accept, .markCancelled TaskFamily.root]

theorem sampleSteps_accounted :
    let l := sampleListener.run sampleSteps
    begin? (some 1) = some sampleListener ∧
    (l.serving = [⟨2, true⟩] ∧ l.active = 1 ∧ l.free + 1 + 0 = 1) ∧
    (l.endConnection 2 .dropped).serving = [] ∧
    (l.endConnection 2 .dropped).active + 1 = 1 ∧
    (l.endConnection 2 .dropped).free = l.free + 1 := by
  intro l
  have hbegin : begin? (some 1) = some sampleListener := by decide
  obtain ⟨-, hactive, htotal, -, hended, -⟩ :=
    admission_accounted hbegin sampleSteps
  have hserving : l.serving = [⟨2, true⟩] := by decide
  have hpermits : l.servingPermits = 1 := by decide
  have hloop : l.loopPermits = 0 := by decide
  obtain ⟨hleft, hcount, hfree⟩ :=
    hended ⟨2, true⟩ (hserving ▸ List.mem_singleton_self _)
      .dropped (by decide)
  have hone : l.active = 1 := hactive.trans (congrArg List.length hserving)
  refine ⟨hbegin, ⟨hserving, hone, ?_⟩, ?_, hcount.trans hone, hfree⟩
  · rw [← hpermits, ← hloop]
    exact htotal
  · rw [hserving] at hleft
    exact hleft

theorem run_start (limit : Option Nat) :
    start? limit = (begin? limit).map fun l => l.run [.acquire] := rfl

theorem run_accept (l : Listener) :
    l.accept?.map Prod.snd =
      if l.isReady then some (l.run [.accept, .acquire]) else none := by
  simp only [accept?, run, List.foldl_cons, List.foldl_nil, step, admit?_eq]
  split <;> rfl

theorem run_acceptFailed (l : Listener) :
    l.run [.fail, .acquire] = l.acceptFailed :=
  rfl

theorem run_finish (l : Listener) (task : Nat) :
    l.run [.endConnection task .done, .acquire] = l.finish task := rfl

theorem run_stopAccepting (l : Listener) :
    l.run [.markCancelled acceptSet, .endLoop] = l.stopAccepting := rfl

def cancelSteps (l : Listener) : List Step :=
  .markCancelled TaskFamily.root :: .endLoop :: l.connections.map fun c =>
    .endConnection c.task .dropped

theorem run_cancel (l : Listener) : l.run l.cancelSteps = l.cancel := by
  simp only [run, cancelSteps, List.foldl_cons, List.foldl_map]
  rfl

theorem run_drain (l : Listener) :
    l.run [.markCancelled acceptSet, .endLoop, .close] = l.drain := rfl

theorem run_shutdown (l : Listener) :
    l.run (l.cancelSteps ++ [.close]) = l.shutdown := by
  have hcancel := l.run_cancel
  rw [run] at hcancel ⊢
  rw [List.foldl_concat, hcancel]
  rfl

end Listener
end ChatRelay
