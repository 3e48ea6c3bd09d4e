import Mathlib.Data.List.NodupEquivFin
import ChatRelay.Proofs.Bus.Publish
/-!
# Runs of the bus

A run is a sequence of operations by arbitrary users: subscribing with or
without a guard, freeing a slot by number or by dropping a guard, publishing,
receiving, and closing or dropping a receiver. A step lemma lists the possible
effects of one operation on the slots.
-/

namespace ChatRelay

namespace Channel

variable {α : Type}

/-- Whether a channel has room for another value. -/
def hasRoom (c : Channel α) : Bool :=
  c.isOpen && decide (c.queue.length < c.capacity)

theorem hasRoom_iff (c : Channel α) :
    c.hasRoom = true ↔ c.isOpen = true ∧ c.queue.length < c.capacity := by
  rw [hasRoom, Bool.and_eq_true, decide_eq_true_iff]

theorem send_of_hasRoom {c : Channel α} (h : c.hasRoom = true) (a : α) :
    c.send a = (.delivered, { c with queue := c.queue ++ [a] }) := by
  obtain ⟨hopen, hlength⟩ := (hasRoom_iff c).mp h
  simp only [send, hopen, hlength, not_true_eq_false, if_true, if_false]

theorem send_of_not_hasRoom {c : Channel α} (h : c.hasRoom = false) (a : α) :
    (c.send a).1 ≠ .delivered ∧ (c.send a).2 = c := by
  unfold send
  split
  · exact ⟨nofun, rfl⟩
  · next hopen =>
      have hfull : ¬ c.queue.length < c.capacity := by
        intro hlength
        have hroom := (hasRoom_iff c).mpr ⟨not_not.mp hopen, hlength⟩
        rw [h] at hroom
        exact Bool.noConfusion hroom
      rw [if_neg hfull]
      exact ⟨nofun, rfl⟩

theorem create?_eq_some {capacity : Nat} {c : Channel α}
    (h : create? capacity = some c) :
    c = { capacity := max capacity 1 } := by
  unfold create? at h
  split at h
  · exact (Option.some.inj h).symm
  · exact nomatch h

end Channel

namespace Bus

variable {α : Type}

/-- Put a new channel into the least free slot. -/
def insertChannel (bus : Bus α) (c : Channel α) : Subscription × Bus α :=
  let (channel, bus) := bus.addChannel c
  let (slot, bus) := bus.subscribe channel
  (⟨slot, channel⟩, bus)

theorem subscription?_eq (bus : Bus α) (capacity : Nat) :
    bus.subscription? capacity =
      (Channel.create? capacity).map bus.insertChannel := by
  unfold subscription?
  cases Channel.create? (α := α) capacity with
  | none => rfl
  | some c => rfl

/-- A subscription occupies the least free slot with a new channel. -/
theorem subscription?_eq_some {bus bus' : Bus α} {capacity : Nat}
    {r : Subscription} (h : bus.subscription? capacity = some (r, bus')) :
    r = ⟨bus.freeSlot, bus.channels.length⟩ ∧
      bus' = (bus.insertChannel { capacity := max capacity 1 }).2 := by
  rw [subscription?_eq, Option.map_eq_some_iff] at h
  obtain ⟨c, hc, hjoin⟩ := h
  obtain rfl := Channel.create?_eq_some hc
  exact ⟨(congrArg Prod.fst hjoin).symm, (congrArg Prod.snd hjoin).symm⟩

theorem freeSlot_not_taken (bus : Bus α) (n : Nat) :
    bus.slots[bus.freeSlot]? ≠ some (some n) := by
  intro h
  obtain ⟨hlt, htaken⟩ := List.getElem?_eq_some_iff.mp h
  have hfree : bus.slots[bus.freeSlot].isNone = true :=
    List.findIdx_getElem (w := hlt)
  rw [htaken] at hfree
  exact Bool.noConfusion hfree

/-- Subscribing changes one slot, which was free. -/
theorem slots_subscribe (bus : Bus α) (n i : Nat) :
    (bus.subscribe n).2.slots[i]? =
      if i = bus.freeSlot then some (some n) else bus.slots[i]? := by
  have hle : bus.freeSlot ≤ bus.slots.length := List.findIdx_le_length
  change (if bus.freeSlot < bus.slots.length then
    bus.slots.set bus.freeSlot (some n)
    else bus.slots ++ [some n])[i]? = _
  by_cases hlt : bus.freeSlot < bus.slots.length
  · rw [if_pos hlt, List.getElem?_set, if_pos hlt]
    simp only [eq_comm]
  · have hlength : bus.slots.length = bus.freeSlot := by omega
    rw [if_neg hlt, List.getElem?_append, hlength]
    by_cases hi : i < bus.freeSlot
    · rw [if_pos hi, if_neg (Nat.ne_of_lt hi)]
    · rw [if_neg hi]
      by_cases heq : i = bus.freeSlot
      · rw [if_pos heq, heq, Nat.sub_self]
        rfl
      · rw [if_neg heq, List.getElem?_eq_none (by simp; omega),
          List.getElem?_eq_none (by omega)]

/-- Inserting a channel changes one slot, which was free. -/
theorem slots_insertChannel (bus : Bus α) (c : Channel α) (i : Nat) :
    (bus.insertChannel c).2.slots[i]? =
      if i = bus.freeSlot then some (some bus.channels.length)
        else bus.slots[i]? :=
  (bus.addChannel c).2.slots_subscribe bus.channels.length i

theorem slots_unsubscribe (bus : Bus α) (slot i : Nat) (n : Nat) :
    (bus.unsubscribe slot).slots[i]? = some (some n) ↔
      i ≠ slot ∧ bus.slots[i]? = some (some n) := by
  rw [unsubscribe, List.getElem?_set]
  by_cases hi : slot = i
  · subst hi
    simp
  · simp [hi, Ne.symm hi]

/-- Every slot refers to an existing channel, and no channel is in two slots. -/
structure Sound (bus : Bus α) : Prop where
  placed : bus.Placed
  once : ∀ {i j n : Nat}, bus.slots[i]? = some (some n) →
    bus.slots[j]? = some (some n) → i = j

theorem sound_empty : (({} : Bus α)).Sound :=
  ⟨fun _ h => absurd h List.not_mem_nil, fun h => nomatch h⟩

theorem Sound.placed_at {bus : Bus α} (h : bus.Sound) {i n : Nat}
    (hi : bus.slots[i]? = some (some n)) : n < bus.channels.length :=
  h.placed n (List.mem_of_getElem? hi)

theorem Sound.count {bus : Bus α} (h : bus.Sound) (n : Nat) :
    bus.slots.count (some n) = if some n ∈ bus.slots then 1 else 0 := by
  split
  · next hmem =>
      apply Nat.le_antisymm _ (List.count_pos_iff.mpr hmem)
      by_contra htwice
      have htwo : List.Sublist [some n, some n] bus.slots :=
        List.replicate_sublist_iff.mpr (Nat.not_le.mp htwice)
      obtain ⟨i, j, hij, hi, hj⟩ := List.duplicate_iff_exists_distinct_get.mp
        (List.duplicate_iff_sublist.mpr htwo)
      have hi' : bus.slots[i.1]? = some (some n) := by rw [hi]; simp
      have hj' : bus.slots[j.1]? = some (some n) := by rw [hj]; simp
      exact Nat.ne_of_lt hij (h.once hi' hj')
  · next hmem => exact List.count_eq_zero.mpr hmem

/-- The possible effects of one operation on the slots. -/
inductive SlotChange (bus : Bus α) : Bus α → Prop
  | kept {bus' : Bus α} (hslots : bus'.slots = bus.slots)
      (hlength : bus'.channels.length = bus.channels.length) :
    SlotChange bus bus'
  | freed (slot : Nat) : SlotChange bus (bus.unsubscribe slot)
  | joined (c : Channel α) : SlotChange bus (bus.insertChannel c).2

theorem SlotChange.length_le {bus bus' : Bus α} (h : SlotChange bus bus') :
    bus.channels.length ≤ bus'.channels.length := by
  cases h with
  | kept _ hlength => exact Nat.le_of_eq hlength.symm
  | freed slot => exact Nat.le_refl _
  | joined c =>
      change _ ≤ (bus.channels ++ [c]).length
      rw [List.length_append]
      exact Nat.le_add_right _ _

/-- A channel that is in a slot after an operation was there before or is
new. -/
theorem SlotChange.slot {bus bus' : Bus α} (h : SlotChange bus bus') {i n : Nat}
    (hi : bus'.slots[i]? = some (some n)) :
    bus.slots[i]? = some (some n) ∨
      (n = bus.channels.length ∧ i = bus.freeSlot ∧
        n < bus'.channels.length) := by
  cases h with
  | kept hslots _ => exact .inl (hslots ▸ hi)
  | freed slot => exact .inl ((slots_unsubscribe bus slot i n).mp hi).2
  | joined c =>
      rw [slots_insertChannel] at hi
      split at hi
      · next heq =>
          obtain rfl := Option.some.inj (Option.some.inj hi)
          refine .inr ⟨rfl, heq, ?_⟩
          change _ < (bus.channels ++ [c]).length
          rw [List.length_append]
          exact Nat.lt_succ_self _
      · exact .inl hi

theorem SlotChange.sound {bus bus' : Bus α} (h : SlotChange bus bus')
    (hsound : bus.Sound) : bus'.Sound := by
  constructor
  · intro n hn
    obtain ⟨i, hi⟩ := List.mem_iff_getElem?.mp hn
    rcases h.slot hi with hold | ⟨-, -, hnew⟩
    · exact Nat.lt_of_lt_of_le (hsound.placed_at hold) h.length_le
    · exact hnew
  · intro i j n hi hj
    rcases h.slot hi with hold | ⟨hnew, hfree, -⟩
    · rcases h.slot hj with hold' | ⟨hnew', -, -⟩
      · exact hsound.once hold hold'
      · exact absurd (hsound.placed_at hold) (by omega)
    · rcases h.slot hj with hold' | ⟨-, hfree', -⟩
      · exact absurd (hsound.placed_at hold') (by omega)
      · exact hfree.trans hfree'.symm

theorem sendAll_length (a : α) (slot : Nat) (slots : List (Option Nat))
    (channels : List (Channel α)) :
    (sendAll a slot slots channels).2.length = channels.length := by
  induction slots generalizing slot channels with
  | nil => rfl
  | cons taken slots ih =>
      cases taken with
      | none => exact ih _ _
      | some n =>
          simp only [sendAll]
          split
          · exact ih _ _
          · next c _ =>
              have hrest := ih (slot + 1) (channels.set n (c.send a).2)
              rw [List.length_set] at hrest
              split <;> exact hrest

/-- Publishing sends the value once to each channel in a slot. -/
theorem Sound.publish_channel {bus : Bus α} (h : bus.Sound) (a : α) (n : Nat) :
    (bus.publish a).2.channels[n]? =
      (bus.channels[n]?).map fun c =>
        if some n ∈ bus.slots then (c.send a).2 else c := by
  rw [publish_channels, h.count]
  split
  · rfl
  · rw [Function.iterate_zero, Option.map_id_fun, id_eq,
      Option.map_id_fun', id_eq]

theorem receive_slots (bus : Bus α) (n : Nat) :
    (bus.receive n).2.slots = bus.slots := by
  unfold receive
  split
  · rfl
  · split <;> rfl

/-- Receiving removes the oldest value from one channel. -/
theorem receive_channels (bus : Bus α) (n : Nat) :
    (bus.receive n).2.channels =
      bus.channels.modify n fun c => { c with queue := c.queue.tail } := by
  unfold receive
  split
  · next hnone => rw [List.modify_eq_self (List.getElem?_eq_none_iff.mp hnone)]
  · next c hc =>
      rw [List.modify_eq_set_getElem?, hc]
      change _ = bus.channels.set n { c with queue := c.queue.tail }
      split
      · next a queue hqueue => rw [hqueue, List.tail_cons]
      · next hqueue =>
          obtain ⟨hn, rfl⟩ := List.getElem?_eq_some_iff.mp hc
          rw [hqueue, List.tail_nil, ← hqueue, List.set_getElem_self]

end Bus

/-- A bus with the guards of its subscriptions. -/
structure BusRun (α : Type) where
  bus : Bus α := {}
  /-- The guards in order of creation. A dropped guard is `none`. -/
  guards : List (Option Bus.Subscription) := []
  deriving DecidableEq, Repr

namespace BusRun

inductive Act (α : Type) where
  /-- Subscribe with a new channel. -/
  | subscribe (capacity : Nat)
  /-- Subscribe with a new channel, and keep a guard. -/
  | guard (capacity : Nat)
  | unsubscribe (slot : Nat)
  | drop (guard : Nat)
  | publish (a : α)
  | receive (channel : Nat)
  | close (channel : Nat)
  /-- Drop the receiver of a channel. -/
  | discard (channel : Nat)
  deriving DecidableEq, Repr

variable {α : Type}

def act (s : BusRun α) : Act α → BusRun α
  | .subscribe capacity =>
    (Channel.create? capacity).elim s
      fun c => { s with bus := (s.bus.insertChannel c).2 }
  | .guard capacity =>
    (s.bus.subscription? capacity).elim s fun (subscription, bus) =>
      ⟨bus, s.guards ++ [some subscription]⟩
  | .unsubscribe slot => { s with bus := s.bus.unsubscribe slot }
  | .drop i =>
    s.guards[i]?.join.elim s fun subscription =>
      ⟨s.bus.unsubscribe subscription.slot, s.guards.set i none⟩
  | .publish a => { s with bus := (s.bus.publish a).2 }
  | .receive n => { s with bus := (s.bus.receive n).2 }
  | .close n => { s with bus := s.bus.modify n Channel.close }
  | .discard n => { s with bus := s.bus.modify n Channel.discard }

def run (s : BusRun α) (acts : List (Act α)) : BusRun α := acts.foldl act s

/-- The capacity requested by a subscribing operation. -/
def Act.capacity? : Act α → Option Nat
  | .subscribe capacity | .guard capacity => some capacity
  | _ => none

theorem act_guard {s : BusRun α} {capacity : Nat}
    {subscription : Bus.Subscription} {bus : Bus α}
    (h : s.bus.subscription? capacity = some (subscription, bus)) :
    s.act (.guard capacity) = ⟨bus, s.guards ++ [some subscription]⟩ := by
  rw [act, h]
  rfl

/-- Subscribing with or without a guard occupies the same slot. -/
theorem act_asks {s : BusRun α} {x : Act α} {capacity : Nat}
    (hx : x.capacity? = some capacity) {subscription : Bus.Subscription}
    {bus : Bus α}
    (h : s.bus.subscription? capacity = some (subscription, bus)) :
    (s.act x).bus = bus := by
  cases x with
  | guard asked =>
      obtain rfl := Option.some.inj hx
      rw [act_guard h]
  | subscribe asked =>
      obtain rfl := Option.some.inj hx
      rw [Bus.subscription?_eq, Option.map_eq_some_iff] at h
      obtain ⟨c, hc, hjoin⟩ := h
      rw [act, hc, Option.elim_some, hjoin]
  | _ => exact nomatch hx

theorem act_drop {s : BusRun α} {i : Nat} {subscription : Bus.Subscription}
    (h : s.guards[i]? = some (some subscription)) :
    s.act (.drop i) =
      ⟨s.bus.unsubscribe subscription.slot, s.guards.set i none⟩ := by
  rw [act, h]
  rfl

theorem act_slotChange (s : BusRun α) (x : Act α) :
    Bus.SlotChange s.bus (s.act x).bus := by
  cases x with
  | subscribe capacity =>
      rw [act]
      cases Channel.create? (α := α) capacity with
      | none => exact .kept rfl rfl
      | some c => exact .joined c
  | guard capacity =>
      rw [act, Bus.subscription?_eq]
      cases Channel.create? (α := α) capacity with
      | none => exact .kept rfl rfl
      | some c => exact .joined c
  | unsubscribe slot => exact .freed slot
  | drop i =>
      rw [act]
      cases s.guards[i]?.join with
      | none => exact .kept rfl rfl
      | some subscription => exact .freed subscription.slot
  | publish a => exact .kept rfl (Bus.sendAll_length _ _ _ _)
  | receive n =>
      apply Bus.SlotChange.kept (s.bus.receive_slots n)
      rw [Bus.receive_channels, List.length_modify]
  | close n =>
    exact .kept rfl (List.length_modify Channel.close s.bus.channels n)
  | discard n =>
    exact .kept rfl (List.length_modify Channel.discard s.bus.channels n)

theorem run_cons (s : BusRun α) (x : Act α) (acts : List (Act α)) :
    s.run (x :: acts) = (s.act x).run acts := rfl

theorem run_sound {s : BusRun α} (h : s.bus.Sound) (acts : List (Act α)) :
    (s.run acts).bus.Sound := by
  induction acts generalizing s with
  | nil => exact h
  | cons x acts ih => exact ih ((s.act_slotChange x).sound h)

end BusRun

end ChatRelay
