import ChatRelay.Proofs.Server.Families
/-!
# Outcomes of tasks

A task that can complete before its set is cancelled completes, and a task whose
set is cancelled before it can complete is dropped. If both happen at the same
time, either is possible.
-/

namespace ChatRelay

/-- The outcome of a task with the given result, once the task has ended. -/
def TaskState.outcome {α : Type} (result : α) : TaskState → Option (Option α)
  | running => none
  | finished => some (some result)
  | dropped => some none

namespace TaskFamily

/-- The outcome observed by joining a task. -/
def outcome {α : Type} (f : TaskFamily) (task : Nat) (result : α) :
    Option (Option α) :=
  f.tasks[task]?.bind fun t => t.state.outcome result

end TaskFamily

namespace FamilyRun

/-- The effect of a step on a task. -/
def taskAfter (c : FamilyRun) (x : Step) (task : Nat) (t : Task) : Task :=
  match x with
  | .wake i => if i = task then t.wake c.now else t
  | .poll i dueFirst =>
    if i = task then t.poll c.now (c.family.isCancelled t.set) dueFirst else t
  | _ => t

theorem set_taskAfter (c : FamilyRun) (x : Step) (task : Nat) (t : Task) :
    (c.taskAfter x task t).set = t.set := by
  unfold taskAfter Task.wake Task.poll
  split <;> (repeat' split) <;> rfl

theorem tasks_step {c : FamilyRun} {task : Nat} {t : Task}
    (h : c.family.tasks[task]? = some t) (x : Step) :
    (c.step x).family.tasks[task]? = some (c.taskAfter x task t) := by
  cases x with
  | spawn set duration =>
      simp only [step]
      split
      · exact
          (List.getElem?_append_left (List.getElem?_eq_some_iff.mp h).1).trans h
      · exact h
  | child p | close set | pass time =>
      simp only [step]
      split <;> exact h
  | cancel set => exact h
  | wake i | poll i dueFirst =>
      simp only [step, TaskFamily.wake, TaskFamily.poll, List.getElem?_modify,
        h, taskAfter]
      split <;> rfl

/-- The invariant of a task that can complete at the times `due`, and whose set
is cancelled from the times `stop`. -/
inductive TaskInvariant (now start : Time) (due stop : Time → Prop)
    (t : Task) : Prop
  | running (hstate : t.state = .running)
      (hnext : ∀ d, due d → ∃ e ∈ t.due, e ≤ d)
      (hdue : ∀ d ∈ t.due, due d ∧ now ≤ d)
      (hstop : ∀ k, stop k → now ≤ max k start)
  | finished (hstate : t.state = .finished) (d : Time) (hdue : due d)
      (hpast : d ≤ now) (hstop : ∀ k, stop k → d ≤ max k start)
  | dropped (hstate : t.state = .dropped) (k : Time) (hstop : stop k)
      (hpast : max k start ≤ now) (hdue : ∀ d, due d → max k start ≤ d)

section

variable {now start : Time} {due due' stop stop' : Time → Prop} {t : Task}

/-- The set of the task is cancelled at the current time. -/
theorem TaskInvariant.cancelled (h : TaskInvariant now start due stop t)
    (hold : ∀ k, stop k → stop' k) (hnew : ∀ k, stop' k → stop k ∨ k = now) :
    TaskInvariant now start due stop' t := by
  have hlater {m : Time} (hm : m ≤ now)
      (h : ∀ k, stop k → m ≤ max k start) (k : Time)
      (hk : stop' k) : m ≤ max k start := by
    rcases hnew k hk with hstop | rfl
    · exact h k hstop
    · exact Nat.le_trans hm (Nat.le_max_left k start)
  cases h with
  | running hstate hnext hdue hstop =>
      exact .running hstate hnext hdue (hlater (Nat.le_refl now) hstop)
  | finished hstate d hdue hpast hstop =>
    exact .finished hstate d hdue hpast (hlater hpast hstop)
  | dropped hstate k hstop hpast hdue =>
    exact .dropped hstate k (hold k hstop) hpast hdue

theorem TaskInvariant.of_running (h : TaskInvariant now start due stop t)
    (hrunning : t.isRunning = true) :
    (∀ d, due d → ∃ e ∈ t.due, e ≤ d) ∧ (∀ d ∈ t.due, due d ∧ now ≤ d) ∧
      ∀ k, stop k → now ≤ max k start := by
  rw [Task.isRunning_iff] at hrunning
  cases h with
  | running _ hnext hdue hstop => exact ⟨hnext, hdue, hstop⟩
  | finished hstate | dropped hstate => cases hstate.symm.trans hrunning

/-- A running task could not have completed earlier. -/
theorem TaskInvariant.now_le (h : TaskInvariant now start due stop t)
    (hrunning : t.isRunning = true) {d : Time} (hd : due d) : now ≤ d := by
  obtain ⟨hnext, hdue, -⟩ := h.of_running hrunning
  obtain ⟨e, he, hle⟩ := hnext d hd
  exact Nat.le_trans (hdue e he).2 hle

theorem TaskInvariant.poll (h : TaskInvariant now start due stop t)
    {cancelled : Bool} (hcancelled : cancelled = true ↔ ∃ k, stop k)
    (hpast : ∀ k, stop k → max k start ≤ now) (dueFirst : Bool) :
    TaskInvariant now start due stop (t.poll now cancelled dueFirst) := by
  cases hrunning : t.isRunning with
  | false =>
      rw [Task.poll_over hrunning]
      exact h
  | true =>
      obtain ⟨-, hdue, hstop⟩ := h.of_running hrunning
      simp only [Task.poll, hrunning, Bool.not_true,
        Bool.false_eq_true, if_false]
      split
      · next hends =>
          obtain ⟨d, hd, hle⟩ :=
            (Task.isDue_iff now t).mp ((Bool.and_eq_true _ _).mp hends).1
          exact .finished rfl d (hdue d hd).1 hle
            fun k hk => Nat.le_trans hle (hstop k hk)
      · split
        · next hgiven =>
            obtain ⟨k, hk⟩ := hcancelled.mp hgiven
            exact .dropped rfl k hk (hpast k hk) fun d hd =>
              Nat.le_trans (hpast k hk) (h.now_le hrunning hd)
        · exact h

/-- The own condition of the task becomes true. -/
theorem TaskInvariant.wake (h : TaskInvariant now start due stop t)
    (hnew : ∀ d, due' d ↔ due d ∨ d = now) :
    TaskInvariant now start due' stop (t.wake now) := by
  cases hrunning : t.isRunning with
  | false =>
      rw [Task.wake_over hrunning]
      cases h with
      | running hstate =>
          rw [(Task.isRunning_iff t).mpr hstate] at hrunning
          cases hrunning
      | finished hstate d hdue hpast hstop =>
          exact .finished hstate d ((hnew d).mpr (.inl hdue)) hpast hstop
      | dropped hstate k hstop hpast hdue =>
          refine .dropped hstate k hstop hpast fun d hd => ?_
          rcases (hnew d).mp hd with hold | rfl
          · exact hdue d hold
          · exact hpast
  | true =>
      have hstate := (Task.isRunning_iff t).mp hrunning
      obtain ⟨-, hdue, hstop⟩ := h.of_running hrunning
      have hnow {d : Time} (hd : due' d) : now ≤ d := by
        rcases (hnew d).mp hd with hold | rfl
        · exact h.now_le hrunning hold
        · exact Nat.le_refl d
      simp only [Task.wake, hrunning, Bool.true_and]
      split
      · refine .running hstate ?_ ?_ hstop
        · intro d hd
          exact ⟨now, rfl, hnow hd⟩
        · rintro d ⟨⟩
          exact ⟨(hnew now).mpr (.inr rfl), Nat.le_refl now⟩
      · next hready =>
          -- the task could have finished already
          obtain ⟨e, he, hle⟩ :=
            (Task.isDue_iff now t).mp (by simpa using hready)
          apply TaskInvariant.running hstate
          · intro d hd
            exact ⟨e, he, Nat.le_trans hle (hnow hd)⟩
          · intro d hd
            exact ⟨(hnew d).mpr (.inl (hdue d hd).1), (hdue d hd).2⟩
          · exact hstop

/-- The clock advances while no task is ready. -/
theorem TaskInvariant.pass (h : TaskInvariant now start due stop t)
    {time : Time}
    (hquiet : t.isRunning = true → (∀ d ∈ t.due, now + time ≤ d) ∧
      ∀ k, ¬ stop k) :
    TaskInvariant (now + time) start due stop t := by
  cases h with
  | running hstate hnext hdue hstop =>
      obtain ⟨hlate, hnever⟩ := hquiet ((Task.isRunning_iff t).mpr hstate)
      apply TaskInvariant.running hstate hnext
      · intro d hd
        exact ⟨(hdue d hd).1, hlate d hd⟩
      · intro k hk
        exact absurd hk (hnever k)
  | finished hstate d hdue hpast hstop =>
      exact .finished hstate d hdue (Nat.le_add_right_of_le hpast) hstop
  | dropped hstate k hstop hpast hdue =>
      exact .dropped hstate k hstop (Nat.le_add_right_of_le hpast) hdue

/-- The invariant of a new task. -/
theorem TaskInvariant.begin (hstate : t.state = .running)
    (hdue : ∀ d, due d ↔ d ∈ t.due) (hlater : ∀ d ∈ t.due, start ≤ d) :
    TaskInvariant start start due stop t := by
  apply TaskInvariant.running hstate
  · intro d hd
    exact ⟨d, (hdue d).mp hd, Nat.le_refl d⟩
  · intro d hd
    exact ⟨(hdue d).mpr hd, hlater d hd⟩
  · intro k _
    exact Nat.le_max_right k start

end

/-- The invariant is preserved by every step. -/
theorem TaskInvariant.taskAfter {c : FamilyRun} {task : Nat}
    (h : TaskInvariant c.now start due stop t)
    (htask : c.family.tasks[task]? = some t)
    (hcancelled : c.family.isCancelled t.set = true ↔ ∃ k, stop k)
    (hpast : ∀ k, stop k → max k start ≤ c.now) (x : Step)
    (hdue : ∀ d, due' d ↔ due d ∨ x = .wake task ∧ d = c.now) :
    TaskInvariant (c.step x).now start due' stop (c.taskAfter x task t) := by
  have hsame (hx : x ≠ .wake task) : due' = due := by
    funext d
    simp [hdue, hx]
  cases x with
  | wake i =>
      change TaskInvariant c.now start due' stop
        (if i = task then t.wake c.now else t)
      by_cases hi : i = task
      · subst hi
        rw [if_pos rfl]
        exact h.wake fun d => by simp [hdue]
      · rw [if_neg hi, hsame fun hx => hi (Step.wake.inj hx)]
        exact h
  | poll i dueFirst =>
      change TaskInvariant c.now start due' stop
        (if i = task then t.poll c.now (c.family.isCancelled t.set)
          dueFirst else t)
      rw [hsame (by simp)]
      split
      · exact h.poll hcancelled hpast dueFirst
      · exact h
  | pass time =>
      change TaskInvariant (if c.isIdleFor time then
        { c with now := c.now + time } else c).now start due' stop t
      rw [hsame (by simp)]
      split
      · next hquiet =>
          apply h.pass
          intro hrunning
          have ht := List.all_eq_true.mp hquiet t (List.mem_of_getElem? htask)
          rw [hrunning, Bool.not_true, Bool.false_or, Bool.and_eq_true,
            Bool.not_eq_true'] at ht
          obtain ⟨hfalse, hlate⟩ := ht
          constructor
          · intro d hd
            rw [hd] at hlate
            exact of_decide_eq_true hlate
          · intro k hk
            rw [hcancelled.mpr ⟨k, hk⟩] at hfalse
            cases hfalse
      · exact h
  | cancel set =>
      rw [hsame (by simp)]
      exact h
  | child p | spawn set duration | close set =>
      rw [hsame (by simp)]
      simp only [step]
      split <;> exact h

theorem not_woken {steps : List Step} {task : Nat} {k : Time}
    (htask : (run steps).family.tasks.length ≤ task) :
    ¬ Occurs steps (.wake task) fun c => task < c.family.tasks.length ∧
      c.now = k := by
  rintro ⟨c, hc, hlt, -⟩
  exact Nat.lt_irrefl _
    (Nat.lt_of_lt_of_le hlt (Nat.le_trans (precedes_run hc).tasks htask))

theorem due_concat (steps : List Step) (x : Step) (task : Nat) (start : Time)
    (duration : Option Time) (d : Time) :
    Due (steps ++ [x]) task start duration d ↔ Due steps task start duration d ∨
      x = .wake task ∧ task < (run steps).family.tasks.length ∧
      (run steps).now = d := by
  constructor
  · rintro (h | h)
    · exact .inl (.elapsed h)
    · exact ((occurs_concat steps x _ _).mp h).imp_left .woken
  · rintro ((h | h) | h)
    · exact .elapsed h
    · exact .woken ((occurs_concat steps x _ _).mpr (.inl h))
    · exact .woken ((occurs_concat steps x _ _).mpr (.inr h))

/-- The invariant of a task in a run. -/
structure Tracked (steps : List Step) (task set : Nat) (start : Time)
    (duration : Option Time) (t : Task) : Prop where
  among : (run steps).family.tasks[task]? = some t
  set_eq : t.set = set
  has : (run steps).HasSet set
  begun : start ≤ (run steps).now
  invariant : TaskInvariant (run steps).now start
    (Due steps task start duration) (CancelledFrom steps set) t

theorem Tracked.concat {steps : List Step} {task set : Nat} {start : Time}
    {duration : Option Time} {t : Task}
    (h : Tracked steps task set start duration t) (x : Step) :
    Tracked (steps ++ [x]) task set start duration
      ((run steps).taskAfter x task t) := by
  have hprecedes := precedes_step (run steps) x
  rw [← run_concat] at hprecedes
  have hinv : TaskInvariant (run (steps ++ [x])).now start
      (Due (steps ++ [x]) task start duration)
      (CancelledFrom steps set) ((run steps).taskAfter x task t) := by
    rw [run_concat]
    apply h.invariant.taskAfter h.among
    · rw [h.set_eq]
      exact isCancelled_run steps set
    · intro k hk
      exact Nat.max_le.mpr ⟨hk.le, h.begun⟩
    · intro d
      have htask : task < (run steps).family.tasks.length :=
        (List.getElem?_eq_some_iff.mp h.among).1
      simp [due_concat, htask, eq_comm]
  exact
    { among := by
        rw [run_concat]
        exact tasks_step h.among x
      set_eq := (set_taskAfter _ x task t).trans h.set_eq
      has := Nat.lt_of_lt_of_le h.has hprecedes.sets
      begun := Nat.le_trans h.begun hprecedes.now
      invariant :=
        hinv.cancelled (fun k hk => hk.concat x)
          fun k hk => hk.of_concat h.has }

/-- A task that has just been spawned. -/
theorem known_spawn {steps : List Step} {set : Nat}
    (hset : (run steps).HasSet set) (duration : Option Time) :
    Tracked (steps ++ [.spawn set duration]) (run steps).family.tasks.length
      set (run steps).now duration
      { set
        start := (run steps).now
        due := duration.map (Time.after (run steps).now) } := by
  have hafter : run (steps ++ [.spawn set duration]) =
      { run steps with
        family := ((run steps).family.addTask (run steps).now set
          duration).2 } := by
    rw [run_concat, step, if_pos hset]
  have hdue (d : Time) :
      Due (steps ++ [.spawn set duration]) (run steps).family.tasks.length
        (run steps).now
        duration d ↔ d ∈ duration.map (Time.after (run steps).now) := by
    rw [due_concat]
    constructor
    · rintro ((h | h) | ⟨h, -⟩)
      · rw [h]
        rfl
      · exact absurd h (not_woken (Nat.le_refl _))
      · cases h
    · intro hd
      obtain ⟨wait, hwait, rfl⟩ := Option.map_eq_some_iff.mp hd
      exact .inl (.elapsed hwait)
  exact
    { among := by
        rw [hafter]
        exact List.getElem?_concat_length
      set_eq := rfl
      has := by
        rw [hafter]
        exact hset
      begun := Nat.le_of_eq (congrArg FamilyRun.now hafter).symm
      invariant := by
        rw [hafter]
        apply TaskInvariant.begin rfl hdue
        intro d hd
        obtain ⟨wait, -, rfl⟩ := Option.map_eq_some_iff.mp hd
        exact Nat.le_add_right _ _ }

/-- Every spawned task satisfies the invariant. -/
theorem Spawned.known {steps : List Step} {task set : Nat} {start : Time}
    {duration : Option Time} (h : Spawned steps task set start duration) :
    ∃ t, Tracked steps task set start duration t := by
  induction steps using List.reverseRecOn with
  | nil => exact absurd h (not_occurs_nil _ _)
  | append_singleton steps x ih =>
      rcases (occurs_concat steps x _ _).mp h with hold | ⟨rfl, hset, rfl, rfl⟩
      · obtain ⟨t, ht⟩ := ih hold
        exact ⟨_, ht.concat x⟩
      · exact ⟨_, known_spawn hset duration⟩

theorem length_tasks_step (c : FamilyRun) (x : Step) :
    (c.step x).family.tasks.length = c.family.tasks.length ∨
      ∃ set duration, x = .spawn set duration ∧ c.HasSet set ∧
        (c.step x).family.tasks.length = c.family.tasks.length + 1 := by
  cases x with
  | spawn set duration =>
      by_cases hset : c.HasSet set
      · exact .inr
          ⟨set, duration, rfl, hset, by simp [step, hset, TaskFamily.addTask]⟩
      · exact .inl (by simp [step, hset])
  | child p | close set | pass time =>
      left
      simp only [step]
      split <;> rfl
  | cancel set => exact .inl rfl
  | wake task | poll task dueFirst =>
      left
      simp [step, TaskFamily.wake, TaskFamily.poll]

/-- Every task was spawned. -/
theorem spawned_of_lt {steps : List Step} {task : Nat}
    (h : task < (run steps).family.tasks.length) :
    ∃ set start duration, Spawned steps task set start duration := by
  induction steps using List.reverseRecOn with
  | nil => exact absurd h (Nat.not_lt_zero task)
  | append_singleton steps x ih =>
      have hold (hlt : task < (run steps).family.tasks.length) :
          ∃ set start duration, Spawned (steps ++ [x]) task set start
            duration := by
        obtain ⟨set, start, duration, hspawned⟩ := ih hlt
        exact ⟨set, start, duration, (occurs_concat steps x _ _).mpr
          (.inl hspawned)⟩
      rw [run_concat] at h
      rcases (run steps).length_tasks_step x
        with hsame | ⟨set, duration, rfl, hset, hmore⟩
      · exact hold (hsame ▸ h)
      · rcases Nat.lt_or_eq_of_le (Nat.lt_succ_iff.mp (hmore ▸ h))
          with hlt | rfl
        · exact hold hlt
        · exact ⟨set, _, duration, (occurs_concat steps _ _ _).mpr
            (.inr ⟨rfl, hset, rfl, rfl⟩)⟩

section

variable {α : Type} {steps : List Step} {task set : Nat} {start : Time}
    {duration : Option Time}
  {t : Task}

theorem Tracked.outcome_eq (h : Tracked steps task set start duration t)
    (result : α) :
    (run steps).family.outcome task result = t.state.outcome result := by
  rw [TaskFamily.outcome, h.among, Option.bind_some]

theorem Tracked.isRunning_eq (h : Tracked steps task set start duration t)
    (result : α) :
    t.isRunning = ((run steps).family.outcome task result).isNone := by
  rw [h.outcome_eq, Task.isRunning]
  cases t.state <;> rfl

/-- A task that has ended does not change. -/
theorem taskAfter_over {t : Task} (hover : t.isRunning = false) (c : FamilyRun)
    (x : Step) (task : Nat) :
    c.taskAfter x task t = t := by
  cases x <;> simp [taskAfter, Task.wake_over hover, Task.poll_over hover]

theorem Tracked.kept (h : Tracked steps task set start duration t)
    (hover : t.isRunning = false) (more : List Step) :
    Tracked (steps ++ more) task set start duration t := by
  induction more using List.reverseRecOn with
  | nil =>
      rw [List.append_nil]
      exact h
  | append_singleton more x ih =>
      have hlater := ih.concat x
      rw [taskAfter_over hover, List.append_assoc] at hlater
      exact hlater

/-- A task that can complete before its set is cancelled is not dropped, and
completes as time passes. -/
theorem Tracked.finishes (h : Tracked steps task set start duration t)
    {d : Time} (hdue : Due steps task start duration d)
    (hfirst : ∀ k, CancelledFrom steps set k → d < k) (result : α) :
    (run steps).family.outcome task result ≠ some none ∧
      (d < (run steps).now →
        (run steps).family.outcome task result = some (some result)) := by
  rw [h.outcome_eq]
  cases h.invariant with
  | running hstate hnext hdues hstop =>
      rw [hstate]
      have hlate := h.invariant.now_le ((Task.isRunning_iff t).mpr hstate) hdue
      exact ⟨nofun, fun hpast => absurd hpast (Nat.not_lt.mpr hlate)⟩
  | finished hstate e hdues hpast hstop =>
      rw [hstate]
      exact ⟨nofun, fun _ => rfl⟩
  | dropped hstate k hstop hpast hdues =>
      have hk : k ≤ d := Nat.le_trans (Nat.le_max_left k start) (hdues d hdue)
      exact absurd (hfirst k hstop) (Nat.not_lt.mpr hk)

/-- A task whose set is cancelled before it can complete does not complete, and
is dropped as time passes. A cancellation before the start of the task takes
effect at the start. -/
theorem Tracked.drops (h : Tracked steps task set start duration t) {k : Time}
    (hstop : CancelledFrom steps set k)
    (hfirst : ∀ d, Due steps task start duration d → max k start < d)
    (result : α) : (run steps).family.outcome task result ≠ some (some result) ∧
      (max k start < (run steps).now →
        (run steps).family.outcome task result = some none) := by
  rw [h.outcome_eq]
  cases h.invariant with
  | running hstate hnext hdues hstops =>
      rw [hstate]
      exact ⟨nofun, fun hpast => absurd hpast (Nat.not_lt.mpr (hstops k hstop))⟩
  | finished hstate d hdue hpast hstops =>
      exact absurd (hfirst d hdue) (Nat.not_lt.mpr (hstops k hstop))
  | dropped hstate e hstops hpast hdues =>
      rw [hstate]
      exact ⟨nofun, fun _ => rfl⟩

/-- The outcome of polling a task when only one of both conditions is true. -/
theorem Tracked.seen (h : Tracked steps task set start duration t)
    (hrunning : t.isRunning = true) (dueFirst : Bool) (more : List Step)
    (result : α) :
    let after :=
      (run (steps ++ .poll task dueFirst :: more)).family.outcome task result
    (∀ d, Due steps task start duration d → d ≤ (run steps).now →
      (run steps).family.isCancelled set = false → after = some (some result)) ∧
    ((∀ d, Due steps task start duration d → (run steps).now < d) →
      (run steps).family.isCancelled set = true → after = some none) := by
  have hpoll := h.concat (.poll task dueFirst)
  have hafter (s : TaskState) (hs : s ≠ .running)
      (hafterTask : ((run steps).taskAfter (.poll task dueFirst) task t).state =
        s) :
      (run (steps ++ .poll task dueFirst :: more)).family.outcome task result =
        s.outcome result := by
    have hover : ((run steps).taskAfter (.poll task dueFirst) task
        t).isRunning = false := by
      rw [Task.isRunning, hafterTask]
      cases s <;> simp at hs ⊢
    have hlater := hpoll.kept hover more
    rw [List.append_assoc, List.singleton_append] at hlater
    rw [hlater.outcome_eq, hafterTask]
  obtain ⟨hnext, hdues, -⟩ := h.invariant.of_running hrunning
  constructor
  · intro d hdue hle hgoes
    apply hafter .finished (by simp)
    obtain ⟨e, he, hed⟩ := hnext d hdue
    have hisDue : t.isDue (run steps).now = true :=
      (Task.isDue_iff _ t).mpr ⟨e, he, Nat.le_trans hed hle⟩
    simp [taskAfter, Task.poll, hrunning, hisDue, h.set_eq, hgoes]
  · intro hlate hgiven
    apply hafter .dropped (by simp)
    have hisDue : t.isDue (run steps).now = false := by
      apply Bool.eq_false_iff.mpr
      intro hready
      obtain ⟨e, he, hle⟩ := (Task.isDue_iff _ t).mp hready
      exact Nat.lt_irrefl _ (Nat.lt_of_lt_of_le (hlate e (hdues e he).1) hle)
    simp [taskAfter, Task.poll, hrunning, hisDue, h.set_eq, hgiven]

end

/-- For every sequence of steps: a set is cancelled if and only if it or one of
its ancestors was cancelled. A task that can complete before its set is
cancelled never ends without its result, and one whose set is cancelled first
never ends with it. The respective outcome is reached when time has passed, and
already when the task is polled with only one of the conditions true. The family
is settled if and only if some set was closed and every spawned task has
ended. -/
theorem cancelled_and_joined {α : Type} (steps : List Step) (result : α) :
    let family := (run steps).family
    (∀ set, family.isCancelled set = true ↔
      ∃ a k, Relation.ReflTransGen (IsChild steps) a set ∧
        CancelledAt steps a k) ∧
    (∀ task set start duration, Spawned steps task set start duration →
      (∀ d, Due steps task start duration d →
        (∀ k, CancelledFrom steps set k → d < k) →
        family.outcome task result ≠ some none ∧
          (d < (run steps).now →
            family.outcome task result = some (some result))) ∧
      (∀ k, CancelledFrom steps set k →
        (∀ d, Due steps task start duration d → max k start < d) →
        family.outcome task result ≠ some (some result) ∧
          (max k start < (run steps).now →
            family.outcome task result = some none))) ∧
    (∀ earlier later task set start duration dueFirst,
      steps = earlier ++ .poll task dueFirst :: later →
      Spawned earlier task set start duration →
      (run earlier).family.outcome task result = none →
      (∀ d, Due earlier task start duration d → d ≤ (run earlier).now →
        (run earlier).family.isCancelled set = false →
        family.outcome task result = some (some result)) ∧
      ((∀ d, Due earlier task start duration d → (run earlier).now < d) →
        (run earlier).family.isCancelled set = true →
        family.outcome task result = some none)) ∧
    (family.isSettled = true ↔ (∃ set, Closed steps set) ∧
      ∀ task set start duration, Spawned steps task set start duration →
        family.outcome task result ≠ none) := by
  intro family
  refine ⟨?_, ?_, ?_, ?_⟩
  · intro set
    rw [isCancelled_run]
    exact exists_comm
  · intro task set start duration hspawned
    obtain ⟨t, ht⟩ := hspawned.known
    exact ⟨fun d hdue hfirst => ht.finishes hdue hfirst result,
      fun k hstop hfirst => ht.drops hstop hfirst result⟩
  · rintro earlier later task set start duration dueFirst rfl hspawned hnone
    obtain ⟨t, ht⟩ := hspawned.known
    have hrunning : t.isRunning = true := by
      rw [ht.isRunning_eq result, hnone, Option.isNone_none]
    exact ht.seen hrunning dueFirst later result
  · rw [TaskFamily.isSettled, Bool.and_eq_true, closed_run, Bool.not_eq_true',
      List.any_eq_false]
    refine and_congr_right fun _ => ?_
    constructor
    · intro hnone task set start duration hspawned
      obtain ⟨t, ht⟩ := hspawned.known
      have hover := hnone t (List.mem_of_getElem? ht.among)
      rw [ht.isRunning_eq result] at hover
      exact mt Option.isNone_iff_eq_none.mpr hover
    · intro hover t hmem
      obtain ⟨task, htask⟩ := List.mem_iff_getElem?.mp hmem
      obtain ⟨set, start, duration, hspawned⟩ :=
        spawned_of_lt (List.getElem?_eq_some_iff.mp htask).1
      obtain ⟨t', ht⟩ := hspawned.known
      obtain rfl : t' = t := Option.some.inj (ht.among.symm.trans htask)
      rw [ht.isRunning_eq result]
      exact mt Option.isNone_iff_eq_none.mp
        (hover task set start duration hspawned)

theorem runFrom_pollSteps (c : FamilyRun) (tasks : List Nat) (dueFirst : Bool) :
    c.runFrom (tasks.map fun task => .poll task dueFirst) =
      { c with
        family := tasks.foldl (TaskFamily.poll c.now dueFirst) c.family } := by
  induction tasks generalizing c with
  | nil => rfl
  | cons task tasks ih => exact ih (c.step (.poll task dueFirst))

/-- The steps that poll all tasks in order. -/
def pollSteps (c : FamilyRun) : List Step :=
  (List.range c.family.tasks.length).map fun task => .poll task false

theorem runFrom_pollAll (c : FamilyRun) :
    c.runFrom c.pollSteps = { c with family := c.family.pollAll c.now } :=
  c.runFrom_pollSteps _ false

theorem runFrom_cancel (c : FamilyRun) (set : Nat) :
    c.runFrom (.cancel set :: c.pollSteps) =
      { c with family := c.family.cancel c.now set } :=
  (c.step (.cancel set)).runFrom_pollAll

theorem runFrom_spawn {c : FamilyRun} {set : Nat} (hset : c.HasSet set)
    (duration : Option Time) :
    c.runFrom [.spawn set duration, .poll c.family.tasks.length false] =
      { c with family := (c.family.spawn c.now set duration).2 } := by
  simp only [runFrom, List.foldl_cons, List.foldl_nil, step, if_pos hset]
  rfl

theorem runFrom_finish (c : FamilyRun) (task : Nat) :
    c.runFrom [.wake task, .poll task true] =
      { c with family := c.family.finish c.now task } := rfl

/-- A chain of three sets with two tasks in the last one and one in the root, of
which one is woken. -/
def sampleSteps : List Step :=
  [.child 0, .child 1, .spawn 2 (some 5), .spawn 2 (some 30), .spawn 0 none,
    .close 1, .pass 5, .poll 0 true, .pass 5, .cancel 1, .poll 1 false, .pass 5,
      .wake 2, .poll 2 true]

theorem sampleSteps_outcomes :
    let c := run sampleSteps
    let made := Relation.ReflTransGen (IsChild sampleSteps)
    (made 1 2 ∧ c.family.isCancelled 2 = true) ∧
    c.family.isCancelled 0 = false ∧
    (5 < c.now ∧ c.family.outcome 0 "a" = some (some "a")) ∧
    (10 < c.now ∧ c.family.outcome 1 "a" = some none) ∧
    c.family.outcome 2 "a" = some (some "a") ∧
    (Closed sampleSteps 1 ∧ c.family.isSettled = true) := by
  intro c made
  obtain ⟨hcancelled, htasks, hseen, hsettled⟩ :=
    cancelled_and_joined sampleSteps "a"
  have hmade : made 1 2 :=
    .single ⟨run (sampleSteps.take 1), by decide, by decide, by decide⟩
  have hcalled : CancelledAt sampleSteps 1 10 :=
    ⟨run (sampleSteps.take 9), by decide, by decide, by decide⟩
  -- there is no other call
  have honly {a : Nat} {k : Time} (h : CancelledAt sampleSteps a k) : a = 1 ∧
      k = 10 := by
    obtain ⟨m, hm, hset, rfl⟩ := h
    have ha : a < 3 := Nat.lt_of_lt_of_le hset (precedes_run hm).sets
    have hall : ∀ m ∈ trace {} sampleSteps, ∀ a < 3, m.1 = .cancel a →
        a = 1 ∧ m.2.now = 10 := by
      decide
    exact hall (.cancel a, m) hm a ha rfl
  have hfirst : Spawned sampleSteps 0 2 0 (some 5) :=
    ⟨run (sampleSteps.take 2), by decide, by decide, by decide, by decide⟩
  have hsecond : Spawned sampleSteps 1 2 0 (some 30) :=
    ⟨run (sampleSteps.take 3), by decide, by decide, by decide, by decide⟩
  have hthird : Spawned (sampleSteps.take 13) 2 0 0 none :=
    ⟨run (sampleSteps.take 4), by decide, by decide, by decide, by decide⟩
  have hdue (d : Time) (h : Due sampleSteps 1 0 (some 30) d) : 10 < d := by
    rcases h with h | ⟨m, hm, -⟩
    · cases h
      decide
    · have hnone : ∀ m ∈ trace {} sampleSteps, m.1 ≠ .wake 1 := by decide
      exact absurd rfl (hnone _ hm)
  have hwoken : Due (sampleSteps.take 13) 2 0 none 15 :=
    .woken ⟨run (sampleSteps.take 12), by decide, by decide, by decide⟩
  have hclosed : Closed sampleSteps 1 :=
    ⟨run (sampleSteps.take 5), by decide, by decide⟩
  refine ⟨⟨hmade, (hcancelled 2).mpr ⟨1, 10, hmade, hcalled⟩⟩, ?_, ?_, ?_, ?_,
    hclosed, ?_⟩
  · apply Bool.eq_false_iff.mpr
    intro h
    obtain ⟨a, k, habove, hk⟩ := (hcancelled 0).mp h
    obtain ⟨rfl, -⟩ := honly hk
    rcases habove.cases_tail with h | ⟨p, -, hp⟩
    · exact nomatch h
    · exact Nat.not_lt_zero p hp.lt
  · refine ⟨by decide, ((htasks 0 2 0 (some 5) hfirst).1 5 (.elapsed rfl) ?_).2
      (by decide)⟩
    rintro k ⟨a, -, hk⟩
    rw [(honly hk).2]
    decide
  · exact ⟨by decide, ((htasks 1 2 0 (some 30) hsecond).2 10 ⟨1, hmade, hcalled⟩
      hdue).2 (by decide)⟩
  · exact (hseen (sampleSteps.take 13) [] 2 0 0 none true rfl hthird
      (by decide)).1 15 hwoken (by decide) (by decide)
  · apply hsettled.mpr
    refine ⟨⟨1, hclosed⟩, ?_⟩
    intro task set start duration hspawned
    obtain ⟨t, ht⟩ := hspawned.known
    have htask : task < 3 := (List.getElem?_eq_some_iff.mp ht.among).1
    have hover : ∀ i < 3, c.family.outcome i "a" ≠ none := by decide
    exact hover task htask

end FamilyRun
end ChatRelay
