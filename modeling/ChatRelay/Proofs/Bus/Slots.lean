import Mathlib.Data.Set.Card
import ChatRelay.Proofs.Bus.BusRun
/-!
# Reuse of slots

A subscriber occupies the least free slot, so a slot is created only if all
existing ones are occupied. Hence the number of slots is the greatest number of
simultaneously occupied slots.
-/

namespace ChatRelay

namespace Bus

variable {α : Type}

def Taken (bus : Bus α) (slot : Nat) : Prop :=
  ∃ n, bus.slots[slot]? = some (some n)

theorem freeSlot_isLeast (bus : Bus α) :
    IsLeast {i | ¬ bus.Taken i} bus.freeSlot := by
  constructor
  · rintro ⟨n, hn⟩
    exact bus.freeSlot_not_taken n hn
  · intro i hfree
    by_contra hlt
    apply hfree
    have hsome := List.not_of_lt_findIdx (Nat.not_le.mp hlt)
    have hi : i < bus.slots.length :=
      Nat.lt_of_lt_of_le (Nat.not_le.mp hlt) List.findIdx_le_length
    obtain ⟨n, hn⟩ :=
      Option.isSome_iff_exists.mp (by simpa using hsome : bus.slots[i].isSome)
    exact ⟨n, by rw [List.getElem?_eq_getElem hi, hn]⟩

theorem ncard_taken (slots : List (Option Nat)) :
    {i : Nat | ∃ n, slots[i]? = some (some n)}.ncard =
      slots.countP Option.isSome := by
  induction slots using List.reverseRecOn with
  | nil => simp
  | append_singleton slots last ih =>
      have hold (i n : Nat) (hi : i ≠ slots.length) :
          (slots ++ [last])[i]? = some (some n) ↔
            slots[i]? = some (some n) := by
        rcases Nat.lt_or_gt_of_ne hi with hlt | hgt
        · rw [List.getElem?_append_left hlt]
        · simp [List.getElem?_eq_none (show slots.length ≤ i by omega),
            List.getElem?_eq_none
              (show (slots ++ [last]).length ≤ i by simp; omega)]
      have hfinite : {i : Nat | ∃ n, slots[i]? = some (some n)}.Finite := by
        apply (Set.finite_lt_nat slots.length).subset
        rintro i ⟨n, hn⟩
        exact (List.getElem?_eq_some_iff.mp hn).1
      have hlast :
          slots.length ∉ {i : Nat | ∃ n, slots[i]? = some (some n)} := by
        simp
      cases last with
      | none =>
          rw [List.countP_append, ← ih]
          congr 1
          ext i
          by_cases hi : i = slots.length
          · simp [hi]
          · simp [hold i _ hi]
      | some m =>
          have hmore :
              {i : Nat | ∃ n, (slots ++ [some m])[i]? = some (some n)} =
              insert slots.length
                {i : Nat | ∃ n, slots[i]? = some (some n)} := by
            ext i
            by_cases hi : i = slots.length
            · simp [hi]
            · simp [hold i _ hi, hi]
          rw [hmore, Set.ncard_insert_of_notMem hlast hfinite, ih,
            List.countP_append]
          rfl

/-- `occupied` is the number of occupied slots. -/
theorem occupied_eq_ncard (bus : Bus α) :
    bus.occupied = {i | bus.Taken i}.ncard :=
  (ncard_taken bus.slots).symm

theorem occupied_le_length (bus : Bus α) : bus.occupied ≤ bus.slots.length :=
  List.countP_le_length

/-- If no slot is free, all are occupied. -/
theorem occupied_of_full {bus : Bus α} (h : bus.slots.length ≤ bus.freeSlot) :
    bus.occupied = bus.slots.length := by
  apply List.countP_eq_length.mpr
  intro taken htaken
  obtain ⟨i, hi, rfl⟩ := List.getElem_of_mem htaken
  have hsome := List.not_of_lt_findIdx (Nat.lt_of_lt_of_le hi h)
  simpa using hsome

theorem length_subscribe (bus : Bus α) (n : Nat) :
    (bus.subscribe n).2.slots.length =
      if bus.freeSlot < bus.slots.length then bus.slots.length
        else bus.slots.length + 1 := by
  simp only [subscribe]
  split <;> simp

/-- If a slot is created, all existing ones are occupied. -/
theorem occupied_of_growth {bus : Bus α} {n : Nat}
    (h : bus.slots.length < (bus.subscribe n).2.slots.length) :
    (bus.subscribe n).2.occupied = (bus.subscribe n).2.slots.length := by
  rw [length_subscribe] at h
  split at h
  · exact absurd h (Nat.lt_irrefl _)
  · next hfull =>
      have hall := occupied_of_full (Nat.not_lt.mp hfull)
      unfold occupied at hall ⊢
      simp [subscribe, hfull, hall]

theorem slots_unsubscribe_of_ne (bus : Bus α) {slot i : Nat} (h : i ≠ slot) :
    (bus.unsubscribe slot).slots[i]? = bus.slots[i]? :=
  List.getElem?_set_ne (Ne.symm h)

theorem not_taken_unsubscribe (bus : Bus α) (slot : Nat) :
    ¬ (bus.unsubscribe slot).Taken slot := by
  rintro ⟨n, hn⟩
  exact ((bus.slots_unsubscribe slot slot n).mp hn).1 rfl

theorem unsubscribe_unsubscribe (bus : Bus α) (slot : Nat) :
    (bus.unsubscribe slot).unsubscribe slot = bus.unsubscribe slot := by
  simp [unsubscribe]

theorem unsubscribe_unknown (bus : Bus α) {slot : Nat}
    (h : bus.slots.length ≤ slot) :
    bus.unsubscribe slot = bus := by
  simp [unsubscribe, List.set_eq_of_length_le h]

end Bus

namespace BusRun

variable {α : Type}

/-- An operation on the bus, or an additional subscription of an existing
channel. -/
inductive Move (α : Type) where
  | act (x : Act α)
  | share (channel : Nat)
  deriving DecidableEq, Repr

def move (s : BusRun α) : Move α → BusRun α
  | .act x => s.act x
  | .share channel => { s with bus := (s.bus.subscribe channel).2 }

def runMoves (s : BusRun α) (moves : List (Move α)) : BusRun α :=
  moves.foldl move s

theorem runMoves_concat (s : BusRun α) (moves : List (Move α)) (m : Move α) :
    s.runMoves (moves ++ [m]) = (s.runMoves moves).move m := by
  rw [runMoves, List.foldl_concat, runMoves]

/-- A move creates no slot, or the least free slot is the one created. -/
theorem length_move (s : BusRun α) (m : Move α) :
    (s.move m).bus.slots.length = s.bus.slots.length ∨
      s.bus.slots.length < (s.move m).bus.slots.length ∧
        (s.move m).bus.occupied = (s.move m).bus.slots.length := by
  have hsubscribe (n : Nat) :
      (s.bus.subscribe n).2.slots.length = s.bus.slots.length ∨
      s.bus.slots.length < (s.bus.subscribe n).2.slots.length ∧
        (s.bus.subscribe n).2.occupied =
          (s.bus.subscribe n).2.slots.length := by
    have hlength := s.bus.length_subscribe n
    by_cases hfree : s.bus.freeSlot < s.bus.slots.length
    · rw [if_pos hfree] at hlength
      exact .inl hlength
    · rw [if_neg hfree] at hlength
      have hmore : s.bus.slots.length < (s.bus.subscribe n).2.slots.length := by
        omega
      exact .inr ⟨hmore, Bus.occupied_of_growth hmore⟩
  cases m with
  | share n => exact hsubscribe n
  | act x =>
      change (s.act x).bus.slots.length = _ ∨ _ < (s.act x).bus.slots.length ∧
        (s.act x).bus.occupied = (s.act x).bus.slots.length
      generalize hafter : (s.act x).bus = bus
      have hshift : Bus.SlotChange s.bus bus := hafter ▸ s.act_slotChange x
      cases hshift with
      | kept hslots _ => exact .inl (congrArg List.length hslots)
      | freed slot => exact .inl List.length_set
      | joined c => exact hsubscribe s.bus.channels.length

/-- The numbers of occupied slots before, between and after the given moves. -/
def Peaks (moves : List (Move α)) : Set Nat :=
  {k | ∃ earlier, earlier <+: moves ∧ (runMoves {} earlier).bus.occupied = k}

theorem peaks_concat (moves : List (Move α)) (m : Move α) :
    Peaks (moves ++ [m]) =
      insert (runMoves {} (moves ++ [m])).bus.occupied (Peaks moves) := by
  ext k
  simp only [Peaks, Set.mem_ofPred_eq, Set.mem_insert_iff,
    List.prefix_concat_iff, or_and_right, exists_or, exists_eq_left]
  rw [eq_comm]

/-- The number of slots is the greatest number of simultaneously occupied
slots. -/
theorem length_isGreatest (moves : List (Move α)) :
    IsGreatest (Peaks moves) (runMoves {} moves).bus.slots.length := by
  induction moves using List.reverseRecOn with
  | nil =>
      constructor
      · exact ⟨[], List.prefix_rfl, rfl⟩
      · rintro k ⟨earlier, hpart, rfl⟩
        rw [List.prefix_nil.mp hpart]
        exact Nat.le_refl _
  | append_singleton moves m ih =>
      have hle := (runMoves {} (moves ++ [m])).bus.occupied_le_length
      rw [peaks_concat]
      rcases (runMoves {} moves).length_move m with hsame | ⟨hmore, hfull⟩
      · rw [← runMoves_concat] at hsame
        rw [hsame] at hle ⊢
        exact ⟨Set.mem_insert_of_mem _ ih.1, by
          rintro k (rfl | hk)
          · exact hle
          · exact ih.2 hk⟩
      · rw [← runMoves_concat] at hmore hfull
        rw [hfull]
        exact ⟨Set.mem_insert _ _, by
          rintro k (rfl | hk)
          · exact Nat.le_refl _
          · exact Nat.le_trans (ih.2 hk) (Nat.le_of_lt hmore)⟩

/-- After any history: a subscription with a new or an existing channel occupies
the least free slot and changes no other slot. Freeing a slot changes no other
slot, and is idempotent and without effect on a slot that does not exist.
Dropping a guard frees the slot it refers to. `occupied` counts the occupied
slots. The number of slots is the maximum of this count over the history. -/
theorem slots_reused_first (moves : List (Move α)) :
    let s : BusRun α := runMoves {} moves
    (∀ n, IsLeast {i | ¬ s.bus.Taken i} (s.bus.subscribe n).1 ∧
      ∀ i, (s.bus.subscribe n).2.slots[i]? =
        if i = (s.bus.subscribe n).1 then some (some n) else s.bus.slots[i]?) ∧
    (∀ capacity r bus, s.bus.subscription? capacity = some (r, bus) →
      IsLeast {i | ¬ s.bus.Taken i} r.slot ∧
      ∀ i, bus.slots[i]? =
        if i = r.slot then some (some r.channel) else s.bus.slots[i]?) ∧
    (∀ k, ¬ (s.bus.unsubscribe k).Taken k ∧
      (∀ i, i ≠ k → (s.bus.unsubscribe k).slots[i]? = s.bus.slots[i]?) ∧
      (s.bus.unsubscribe k).unsubscribe k = s.bus.unsubscribe k ∧
      (s.bus.slots.length ≤ k → s.bus.unsubscribe k = s.bus)) ∧
    (∀ g r, s.guards[g]? = some (some r) →
      (s.act (.drop g)).bus = s.bus.unsubscribe r.slot) ∧
    s.bus.occupied = {i | s.bus.Taken i}.ncard ∧
    IsGreatest (Peaks moves) s.bus.slots.length := by
  intro s
  refine ⟨fun n => ⟨s.bus.freeSlot_isLeast, s.bus.slots_subscribe n⟩, ?_, ?_,
    ?_, s.bus.occupied_eq_ncard, length_isGreatest moves⟩
  · intro capacity r bus h
    obtain ⟨rfl, rfl⟩ := Bus.subscription?_eq_some h
    exact ⟨s.bus.freeSlot_isLeast, s.bus.slots_insertChannel _⟩
  · intro k
    exact
      ⟨s.bus.not_taken_unsubscribe k, fun i => s.bus.slots_unsubscribe_of_ne,
        s.bus.unsubscribe_unsubscribe k, s.bus.unsubscribe_unknown⟩
  · intro g r hguard
    rw [act_drop hguard]

/-- Three subscribers, two of which share a channel. The first slot is freed by
number, and a slot that does not exist is freed. -/
def sampleMoves : List (Move Nat) :=
  [.act (.guard 1), .act (.subscribe 2), .share 0, .act (.unsubscribe 0),
    .act (.unsubscribe 40)]

theorem sampleMoves_slots_reused_first :
    let s : BusRun Nat := runMoves {} sampleMoves
    let next := s.bus.insertChannel { capacity := 1 }
    (s.bus.subscription? 0 = some next ∧ IsLeast {i | ¬ s.bus.Taken i} 0 ∧
      next.2.slots = [some 2, some 1, some 0]) ∧
    (2 ≠ 1 ∧ (s.bus.unsubscribe 1).slots[2]? = some (some 0)) ∧
    (s.bus.slots.length ≤ 40 ∧ s.bus.unsubscribe 40 = s.bus) ∧
    (s.guards[0]? = some (some ⟨0, 0⟩) ∧
      (s.act (.drop 0)).bus = s.bus.unsubscribe 0) ∧
    {i | s.bus.Taken i}.ncard = 2 ∧ IsGreatest (Peaks sampleMoves) 3 := by
  intro s next
  obtain ⟨-, hjoin, hempty, hdrop, hcount, hpeak⟩ :=
    slots_reused_first sampleMoves
  have hnext : s.bus.subscription? 0 = some next := by decide
  have hunknown : s.bus.slots.length ≤ 40 := by decide
  have hguard : s.guards[0]? = some (some ⟨0, 0⟩) := by decide
  have hleast : IsLeast {i | ¬ s.bus.Taken i} next.1.slot :=
    (hjoin 0 next.1 next.2 hnext).1
  have hother : (s.bus.unsubscribe 1).slots[2]? = s.bus.slots[2]? :=
    (hempty 1).2.1 2 (by decide)
  refine ⟨⟨hnext, hleast, by decide⟩, ⟨by decide, hother⟩, ?_,
    ⟨hguard, hdrop 0 ⟨0, 0⟩ hguard⟩, ?_, hpeak⟩
  · exact ⟨hunknown, (hempty 40).2.2.2 hunknown⟩
  · rw [← hcount]
    decide

end BusRun

end ChatRelay
