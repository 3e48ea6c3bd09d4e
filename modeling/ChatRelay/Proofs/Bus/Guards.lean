import ChatRelay.Proofs.Bus.BusRun
/-!
# Guards

A guard stores a slot number. Dropping the guard frees this slot and thereby
removes the channel that occupies it at that time. This is the guard's own
channel unless the slot was freed before.
-/

namespace ChatRelay.BusRun

variable {α : Type}

/-- Whether an operation frees a slot, by number or by dropping a guard. -/
def empties (slot : Nat) (s : BusRun α) : Act α → Bool
  | .unsubscribe k => k = slot
  | .drop i => s.guards[i]?.join.any fun r => r.slot = slot
  | _ => false

/-- Whether an operation of a run frees a slot. -/
def emptied (slot : Nat) (s : BusRun α) : List (Act α) → Bool
  | [] => false
  | x :: acts => empties slot s x || emptied slot (s.act x) acts

/-- An operation removes a channel from the slots. -/
def Removes (s : BusRun α) (x : Act α) (n : Nat) : Prop :=
  some n ∈ s.bus.slots ∧ some n ∉ (s.act x).bus.slots

section

variable {s : BusRun α} {n : Nat}

theorem slot_insertChannel {bus : Bus α} (hn : n < bus.channels.length)
    (c : Channel α) (slot : Nat) :
    (bus.insertChannel c).2.slots[slot]? = some (some n) ↔
      bus.slots[slot]? = some (some n) := by
  rw [Bus.slots_insertChannel]
  split
  · next hfree =>
      -- the slot was free before, and the channel that it holds now is later
      constructor
      · intro hnew
        obtain rfl := Option.some.inj (Option.some.inj hnew)
        exact absurd hn (Nat.lt_irrefl _)
      · intro hold
        rw [hfree] at hold
        exact absurd hold (bus.freeSlot_not_taken n)
  · exact Iff.rfl

/-- A channel stays in its slot until an operation frees the slot, and is never
inserted again. -/
theorem slot_act (hn : n < s.bus.channels.length) (x : Act α) (slot : Nat) :
    (s.act x).bus.slots[slot]? = some (some n) ↔
      s.bus.slots[slot]? = some (some n) ∧ empties slot s x = false := by
  cases x with
  | subscribe capacity =>
      apply Iff.trans _ (and_iff_left rfl).symm
      rw [act]
      cases Channel.create? (α := α) capacity with
      | none => exact Iff.rfl
      | some c => exact slot_insertChannel hn c slot
  | guard capacity =>
      apply Iff.trans _ (and_iff_left rfl).symm
      rw [act, Bus.subscription?_eq]
      cases Channel.create? (α := α) capacity with
      | none => exact Iff.rfl
      | some c => exact slot_insertChannel hn c slot
  | unsubscribe k =>
      rw [act, Bus.slots_unsubscribe, empties, decide_eq_false_iff_not,
        and_comm, ne_comm]
  | drop i =>
      rw [act, empties]
      cases s.guards[i]?.join with
      | none => exact (and_iff_left rfl).symm
      | some r =>
          rw [Option.elim_some, Option.any_some, Bus.slots_unsubscribe,
            decide_eq_false_iff_not, and_comm, ne_comm]
  | receive m =>
      apply Iff.trans _ (and_iff_left rfl).symm
      rw [act, s.bus.receive_slots]
  | _ => exact (and_iff_left rfl).symm

theorem slot_run (hn : n < s.bus.channels.length) (acts : List (Act α))
    (slot : Nat) :
    (s.run acts).bus.slots[slot]? = some (some n) ↔
      s.bus.slots[slot]? = some (some n) ∧ emptied slot s acts = false := by
  induction acts generalizing s with
  | nil => exact (and_iff_left rfl).symm
  | cons x acts ih =>
      have hn' := Nat.lt_of_lt_of_le hn (s.act_slotChange x).length_le
      rw [run_cons, ih hn', slot_act hn, emptied,
        Bool.or_eq_false_iff, and_assoc]

/-- Dropping a guard removes the channel in its slot. -/
theorem removes_drop {i : Nat} {r : Bus.Subscription} (hsound : s.bus.Sound)
    (hguard : s.guards[i]? = some (some r)) :
    s.Removes (.drop i) n ↔ s.bus.slots[r.slot]? = some (some n) := by
  rw [Removes, act_drop hguard]
  constructor
  · rintro ⟨hmem, hgone⟩
    obtain ⟨k, hk⟩ := List.mem_iff_getElem?.mp hmem
    by_contra hslot
    have hne : k ≠ r.slot := by
      rintro rfl
      exact hslot hk
    exact hgone (List.mem_of_getElem?
      ((s.bus.slots_unsubscribe r.slot k n).mpr ⟨hne, hk⟩))
  · intro hslot
    refine ⟨List.mem_of_getElem? hslot, ?_⟩
    intro hmem
    obtain ⟨k, hk⟩ := List.mem_iff_getElem?.mp hmem
    obtain ⟨hne, hk⟩ := (s.bus.slots_unsubscribe r.slot k n).mp hk
    exact hne (hsound.once hk hslot)

/-- A new guard refers to the slot of its own new channel. -/
theorem slot_guard {capacity : Nat} {r : Bus.Subscription} {bus : Bus α}
    (h : s.bus.subscription? capacity = some (r, bus)) :
    (s.act (.guard capacity)).bus.slots[r.slot]? = some (some r.channel) ∧
      r.channel < (s.act (.guard capacity)).bus.channels.length := by
  rw [act_guard h]
  obtain ⟨rfl, rfl⟩ := Bus.subscription?_eq_some h
  constructor
  · rw [Bus.slots_insertChannel, if_pos rfl]
  · change _ < (s.bus.channels ++ [_]).length
    rw [List.length_append]
    exact Nat.lt_succ_self _

end

/-- The effect of dropping a guard. If its slot was not freed since the guard
was created, its own channel is removed and no other. A different channel is
removed if and only if the slot was freed in the meantime and is occupied
again. -/
theorem guard_cancels_other_iff (before after : List (Act α)) {capacity : Nat}
    {r : Bus.Subscription} {bus : Bus α}
    (hjoin : (run {} before).bus.subscription? capacity = some (r, bus))
    {i : Nat}
    (hkept : (((run {} before).act (.guard capacity)).run after).guards[i]? =
      some (some r)) :
    let s := (run {} before).act (.guard capacity)
    let t := s.run after
    (emptied r.slot s after = false → ∀ n, t.Removes (.drop i) n ↔
      n = r.channel) ∧
      ((∃ n, n ≠ r.channel ∧ t.Removes (.drop i) n) ↔
        emptied r.slot s after = true ∧
        ∃ n, t.bus.slots[r.slot]? = some (some n)) := by
  intro s t
  have hbefore : (run {} before).bus.Sound := run_sound Bus.sound_empty before
  have hsound : t.bus.Sound :=
    run_sound (((run {} before).act_slotChange _).sound hbefore) after
  obtain ⟨hslot, hplace⟩ := slot_guard hjoin
  have hown : t.bus.slots[r.slot]? = some (some r.channel) ↔
      emptied r.slot s after = false := by
    rw [slot_run hplace, and_iff_right hslot]
  constructor
  · intro hnever n
    rw [removes_drop hsound hkept, hown.mpr hnever, Option.some.injEq,
      Option.some.injEq, eq_comm]
  · constructor
    · rintro ⟨n, hne, hremoves⟩
      have hn := (removes_drop hsound hkept).mp hremoves
      refine ⟨?_, n, hn⟩
      by_contra hnever
      rw [hown.mpr (Bool.eq_false_of_not_eq_true hnever), Option.some.injEq,
        Option.some.injEq] at hn
      exact hne hn.symm
    · rintro ⟨hemptied, n, hn⟩
      refine ⟨n, ?_, (removes_drop hsound hkept).mpr hn⟩
      rintro rfl
      rw [hown.mp hn] at hemptied
      exact Bool.noConfusion hemptied

/-- A guard whose slot was freed by number and is occupied by another
subscriber. -/
theorem sampleGuard_cancels_other :
    let s : BusRun Nat := act {} (.guard 1)
    let t := s.run [.unsubscribe 0, .subscribe 1]
    t.guards[0]? = some (some ⟨0, 0⟩) ∧ ∃ n, n ≠ 0 ∧ t.Removes (.drop 0) n := by
  intro s t
  have hkept : t.guards[0]? = some (some ⟨0, 0⟩) := rfl
  refine ⟨hkept, ?_⟩
  have hother :=
    (@guard_cancels_other_iff Nat [] [.unsubscribe 0, .subscribe 1] 1
      ⟨0, 0⟩ s.bus rfl 0 hkept).2
  exact hother.mpr ⟨by decide, 1, by decide⟩

/-- Dropping a guard can remove the channel of another subscriber. -/
theorem dropped_guard_cuts_other_off :
    ¬ ∀ (acts : List (Act Nat)) i r n,
      (run {} acts).guards[i]? = some (some r) →
      (run {} acts).Removes (.drop i) n → n = r.channel := by
  intro h
  have hsame :=
    h [.guard 1, .unsubscribe 0, .subscribe 1] 0 ⟨0, 0⟩ 1
      rfl ⟨by decide, by decide⟩
  exact absurd hsame (by decide)

/-- Whether an operation frees no guarded slot by number. -/
def preservesGuarded (s : BusRun α) : Act α → Bool
  | .unsubscribe slot =>
    s.guards.all fun kept => kept.all fun r => r.slot ≠ slot
  | _ => true

/-- Whether this holds for all operations of a run. -/
def preservesAll (s : BusRun α) : List (Act α) → Bool
  | [] => true
  | x :: acts => preservesGuarded s x && preservesAll (s.act x) acts

/-- Every guard refers to the slot of its own channel, and no two guards have
the same channel. -/
structure GuardsOwn (s : BusRun α) : Prop where
  own : ∀ (i : Nat) (r : Bus.Subscription), s.guards[i]? = some (some r) →
    s.bus.slots[r.slot]? = some (some r.channel)
  apart : ∀ (i j : Nat) (r r' : Bus.Subscription),
    s.guards[i]? = some (some r) →
    s.guards[j]? = some (some r') → r.channel = r'.channel → i = j

theorem guard_act {s : BusRun α} {x : Act α} {i : Nat} {r : Bus.Subscription}
    (h : (s.act x).guards[i]? = some (some r)) :
    (s.guards[i]? = some (some r) ∧ x ≠ .drop i) ∨
      ∃ capacity bus, x = .guard capacity ∧
        s.bus.subscription? capacity = some (r, bus) ∧
        i = s.guards.length := by
  cases x with
  | subscribe capacity =>
      rw [act] at h
      cases hc : Channel.create? (α := α) capacity with
      | none => exact .inl ⟨by simpa [hc] using h, by simp⟩
      | some c => exact .inl ⟨by simpa [hc] using h, by simp⟩
  | guard capacity =>
      cases hjoin : s.bus.subscription? capacity with
      | none =>
          rw [act, hjoin] at h
          exact .inl ⟨h, by simp⟩
      | some joined =>
          rw [act_guard hjoin, List.getElem?_append] at h
          split at h
          · exact .inl ⟨h, by simp⟩
          · next hle =>
              obtain ⟨hlt, heq⟩ := List.getElem?_eq_some_iff.mp h
              have hi : i = s.guards.length := by
                rw [List.length_singleton] at hlt
                omega
              rw [List.getElem_singleton, Option.some.injEq] at heq
              exact .inr ⟨capacity, joined.2, rfl, by rw [hjoin, ← heq], hi⟩
  | drop k =>
      rw [act] at h
      cases hk : s.guards[k]?.join with
      | none =>
          rw [hk] at h
          refine .inl ⟨h, ?_⟩
          rintro ⟨⟩
          rw [Option.elim_none] at h
          rw [h] at hk
          cases hk
      | some r' =>
          rw [hk, Option.elim_some, List.getElem?_set] at h
          split at h
          · split at h
            · cases h
            · cases h
          · next hne =>
              refine .inl ⟨h, ?_⟩
              rintro ⟨⟩
              exact hne rfl
  | _ => exact .inl ⟨h, by simp⟩

theorem GuardsOwn.act {s : BusRun α} (h : s.GuardsOwn) (hsound : s.bus.Sound)
    {x : Act α} (hcareful : ∀ slot, x = .unsubscribe slot →
      ∀ (i : Nat) (r : Bus.Subscription), s.guards[i]? = some (some r) →
        r.slot ≠ slot) :
    (s.act x).GuardsOwn := by
  constructor
  · intro i r hi
    rcases guard_act hi with ⟨hold, hkept⟩ | ⟨capacity, bus, rfl, hjoin, -⟩
    · have hslot := h.own i r hold
      apply (slot_act (hsound.placed_at hslot) x r.slot).mpr
      refine ⟨hslot, ?_⟩
      cases x with
      | unsubscribe slot =>
          exact decide_eq_false (Ne.symm (hcareful slot rfl i r hold))
      | drop k =>
          -- a guard with the same slot has the same channel, so it is this one
          rw [empties, Option.any_eq_false]
          intro r' hr'
          rw [decide_eq_false_iff_not]
          intro hsame
          have hk : s.guards[k]? = some (some r') :=
            Option.join_eq_some_iff.mp hr'
          have hslot' := h.own k r' hk
          rw [hsame, hslot, Option.some.injEq, Option.some.injEq] at hslot'
          exact hkept (congrArg Act.drop (h.apart k i r' r hk hold hslot'.symm))
      | _ => rfl
    · exact (slot_guard hjoin).1
  · intro i j r r' hi hj hsame
    rcases guard_act hi with ⟨hold, -⟩ | ⟨capacity, bus, rfl, hjoin, hnew⟩
    · rcases guard_act hj with ⟨hold', -⟩ | ⟨capacity, bus, rfl, hjoin, -⟩
      · exact h.apart i j r r' hold hold' hsame
      · have hplace := hsound.placed_at (h.own i r hold)
        rw [hsame, (Bus.subscription?_eq_some hjoin).1] at hplace
        exact absurd hplace (Nat.lt_irrefl _)
    · rcases guard_act hj with ⟨hold', -⟩ | ⟨-, -, -, -, hnew'⟩
      · have hplace := hsound.placed_at (h.own j r' hold')
        rw [← hsame, (Bus.subscription?_eq_some hjoin).1] at hplace
        exact absurd hplace (Nat.lt_irrefl _)
      · exact hnew.trans hnew'.symm

theorem GuardsOwn.run {s : BusRun α} (h : s.GuardsOwn) (hsound : s.bus.Sound)
    {acts : List (Act α)} (hcareful : preservesAll s acts = true) :
    (s.run acts).GuardsOwn := by
  induction acts generalizing s with
  | nil => exact h
  | cons x acts ih =>
      rw [preservesAll, Bool.and_eq_true] at hcareful
      apply ih _ ((s.act_slotChange x).sound hsound) hcareful.2
      apply h.act hsound
      rintro slot rfl i r hi
      have hall :=
        List.all_eq_true.mp hcareful.1 (some r) (List.mem_of_getElem? hi)
      exact of_decide_eq_true hall

/-- If no guarded slot is freed by number, a dropped guard removes its own
channel and no other. -/
theorem preservesAll_guard_cancels_own {acts : List (Act α)}
    (hcareful : preservesAll {} acts = true) {i : Nat} {r : Bus.Subscription}
    (hkept : (run {} acts).guards[i]? = some (some r)) (n : Nat) :
    (run {} acts).Removes (.drop i) n ↔ n = r.channel := by
  have hstart : (({} : BusRun α)).GuardsOwn := ⟨nofun, nofun⟩
  have hcharge := hstart.run Bus.sound_empty hcareful
  rw [removes_drop (run_sound Bus.sound_empty acts) hkept,
    hcharge.own i r hkept, Option.some.injEq, Option.some.injEq, eq_comm]

end ChatRelay.BusRun
