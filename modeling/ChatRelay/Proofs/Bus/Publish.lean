import Mathlib.Logic.Function.Iterate
import ChatRelay.Bus.Subscribers
/-!
# The effect of publishing on channels

Publishing sends a value to each channel once for every slot that refers to it,
and changes no other channel.
-/

namespace ChatRelay

namespace Channel

variable {α : Type}

theorem send_queue (c : Channel α) (a : α) :
    (c.send a).2.queue = c.queue ∨ (c.send a).2.queue = c.queue ++ [a] := by
  unfold send
  split
  · exact .inl rfl
  · split
    · exact .inr rfl
    · exact .inl rfl

/-- The number of copies accepted by a channel to which a value is sent
repeatedly: zero if it is closed, and otherwise at most its remaining room. -/
def intake (c : Channel α) (times : Nat) : Nat :=
  if c.isOpen then min times (c.capacity - c.queue.length) else 0

theorem send_closed {c : Channel α} (hclosed : c.isOpen = false) (a : α) :
    (c.send a).2 = c := by
  simp [send, hclosed]

theorem send_open {c : Channel α} (hopen : c.isOpen = true)
    (hroom : c.queue.length < c.capacity) (a : α) :
    (c.send a).2 = { c with queue := c.queue ++ [a] } := by
  simp [send, hopen, hroom]

theorem send_full {c : Channel α} (hfull : c.capacity ≤ c.queue.length)
    (a : α) :
    (c.send a).2 = c := by
  unfold send
  split
  · rfl
  · rw [if_neg (Nat.not_lt.mpr hfull)]

theorem send_iterate (c : Channel α) (a : α) (times : Nat) :
    (fun c => (c.send a).2)^[times] c =
      { c with queue := c.queue ++ List.replicate (c.intake times) a } := by
  by_cases hopen : c.isOpen = true
  · induction times generalizing c with
    | zero => simp [intake]
    | succ times ih =>
        rw [Function.iterate_succ_apply]
        by_cases hroom : c.queue.length < c.capacity
        · have hmore : c.intake (times + 1) =
              ({ c with queue := c.queue ++ [a] } : Channel α).intake
                times + 1 := by
            simp only [intake, hopen, if_true, List.length_append,
              List.length_singleton]
            omega
          rw [send_open hopen hroom, ih { c with queue := c.queue ++ [a] }
            hopen, hmore, List.replicate_succ, List.append_assoc,
              List.singleton_append]
        · have hfull := Nat.not_lt.mp hroom
          rw [send_full hfull, ih c hopen]
          simp [intake, Nat.sub_eq_zero_of_le hfull]
  · have hnone : c.intake times = 0 := if_neg hopen
    rw [Function.iterate_fixed (send_closed (Bool.eq_false_iff.mpr hopen) a),
      hnone, List.replicate_zero, List.append_nil]

end Channel

namespace Bus

variable {α : Type}

theorem sendAll_channels (a : α) (slot : Nat) (slots : List (Option Nat))
    (channels : List (Channel α)) (n : Nat) :
    (sendAll a slot slots channels).2[n]? =
      (channels[n]?).map (fun c => (c.send a).2)^[slots.count (some n)] := by
  induction slots generalizing slot channels with
  | nil => simp [sendAll]
  | cons taken slots ih =>
      cases taken with
      | none => simpa [sendAll] using ih (slot + 1) channels
      | some m =>
          cases hm : channels[m]? with
          | none =>
              simp only [sendAll, hm, ih]
              by_cases hmn : m = n
              · subst hmn
                simp [hm]
              · simp [hmn]
          | some c =>
              -- one value is sent here, and the rest to the resulting channel
              have hsent : (sendAll a slot (some m :: slots) channels).2 =
                  (sendAll a (slot + 1) slots
                    (channels.set m (c.send a).2)).2 := by
                simp only [sendAll, hm]
                split <;> rfl
              rw [hsent, ih]
              by_cases hmn : m = n
              · subst hmn
                have hlength := (List.getElem?_eq_some_iff.mp hm).1
                rw [List.getElem?_set_self hlength, hm, List.count_cons_self]
                rfl
              · simp [List.getElem?_set_ne hmn, hmn]

/-- Publishing sends to each channel as often as it is subscribed. -/
theorem publish_channels (bus : Bus α) (a : α) (n : Nat) :
    (bus.publish a).2.channels[n]? =
      (bus.channels[n]?).map
        (fun c => (c.send a).2)^[bus.slots.count (some n)] :=
  sendAll_channels a 0 bus.slots bus.channels n

/-- The values appended to the channels. -/
def added (before after : Bus α) : List α :=
  (before.channels.zip after.channels).flatMap
    fun p => p.2.queue.drop p.1.queue.length

theorem added_self (bus : Bus α) : bus.added bus = [] := by
  rw [added, List.flatMap_eq_nil_iff]
  intro p hp
  obtain ⟨n, hn⟩ := List.mem_iff_getElem?.mp hp
  obtain ⟨h, h'⟩ := List.getElem?_zip_eq_some.mp hn
  rw [Option.some.inj (h.symm.trans h'), List.drop_length]

/-- The number of slots through which a published value reaches a channel, which
is zero before the first subscription. -/
def senders (bus : Bus α) (n : Nat) : Nat :=
  if bus.known then bus.slots.count (some n) else 0

/-- The effect of delivering a value: each channel accepts the value once for
every slot that refers to it, as far as it is open and has room, and nothing
else changes. -/
structure Delivered (before : Bus α) (a : α) (after : Bus α) : Prop where
  known : after.known = before.known
  slots : after.slots = before.slots
  channels : ∀ n, after.channels[n]? =
    (before.channels[n]?).map fun c : Channel α =>
      { c with
        queue := c.queue ++ List.replicate (c.intake (before.senders n)) a }

theorem delivered_publish {bus : Bus α} (hknown : bus.known = true) (a : α) :
    bus.Delivered a (bus.publish a).2 := by
  refine ⟨rfl, rfl, fun n => ?_⟩
  rw [publish_channels, senders, if_pos hknown]
  cases bus.channels[n]? with
  | none => rfl
  | some c => exact congrArg some (c.send_iterate a _)

theorem delivered_unknown {bus : Bus α} (hknown : bus.known = false) (a : α) :
    bus.Delivered a bus := by
  refine ⟨rfl, rfl, fun n => ?_⟩
  have hnone : bus.senders n = 0 := by simp [senders, hknown]
  cases bus.channels[n]? with
  | none => rfl
  | some c => simp [hnone, Channel.intake]

/-- The delivered value is the only one appended to a channel, and is appended
to every accepting channel. -/
theorem Delivered.mem_added {a b : α} {before after : Bus α}
    (h : before.Delivered a after) :
    b ∈ before.added after ↔
      b = a ∧ ∃ (n : Nat) (c : Channel α),
        before.channels[n]? = some c ∧ 0 < c.intake (before.senders n) := by
  constructor
  · intro hb
    obtain ⟨p, hp, hb⟩ := List.mem_flatMap.mp hb
    obtain ⟨n, hn⟩ := List.mem_iff_getElem?.mp hp
    obtain ⟨hbefore, hafter⟩ := List.getElem?_zip_eq_some.mp hn
    rw [h.channels, hbefore, Option.map_some, Option.some.injEq] at hafter
    rw [← hafter, List.drop_left] at hb
    obtain ⟨hcount, rfl⟩ := List.mem_replicate.mp hb
    exact ⟨rfl, n, p.1, hbefore, Nat.pos_of_ne_zero hcount⟩
  · rintro ⟨rfl, n, c, hbefore, hpos⟩
    have hafter := h.channels n
    rw [hbefore, Option.map_some] at hafter
    refine List.mem_flatMap.mpr ⟨(c, _), List.mem_iff_getElem?.mpr
      ⟨n, List.getElem?_zip_eq_some.mpr ⟨hbefore, hafter⟩⟩, ?_⟩
    rw [List.drop_left]
    exact List.mem_replicate.mpr ⟨Nat.ne_of_gt hpos, rfl⟩

/-- Every slot refers to an existing channel. -/
def Placed (bus : Bus α) : Prop :=
  ∀ n, some n ∈ bus.slots → n < bus.channels.length

/-- A channel that is in no slot is in exactly one after it is subscribed. -/
theorem count_subscribe {bus : Bus α} {channel : Nat}
    (hfresh : some channel ∉ bus.slots) :
    (bus.subscribe channel).2.slots.count (some channel) = 1 := by
  have hzero : bus.slots.count (some channel) = 0 :=
    List.count_eq_zero.mpr hfresh
  simp only [subscribe]
  by_cases hfree : bus.freeSlot < bus.slots.length
  · have hnone : bus.slots[bus.freeSlot] = none :=
      Option.isNone_iff_eq_none.mp (List.findIdx_getElem (w := hfree))
    -- the slot that is taken again held no channel
    rw [if_pos hfree, List.count_set hfree, hzero, hnone]
    simp
  · rw [if_neg hfree, List.count_append, hzero]
    simp

/-- A new subscriber has an open and empty channel, in one slot only. -/
theorem subscription?_channel {bus bus' : Bus α} {capacity : Nat}
    {subscription : Subscription} (hplaced : bus.Placed)
    (h : bus.subscription? capacity = some (subscription, bus')) :
    bus'.known = true ∧ bus'.slots.count (some subscription.channel) = 1 ∧
      ∃ c, bus'.channels[subscription.channel]? = some c ∧ c.isOpen = true ∧
        c.queue = [] := by
  simp only [subscription?, Option.bind_eq_bind, Option.bind_eq_some_iff,
    Option.pure_def, Option.some.injEq, Prod.mk.injEq] at h
  obtain ⟨c, hc, rfl, rfl⟩ := h
  simp only [Channel.create?, Option.ite_none_right_eq_some, Option.some.injEq]
    at hc
  obtain ⟨-, rfl⟩ := hc
  refine ⟨rfl, count_subscribe fun h => ?_, _,
    List.getElem?_concat_length, rfl, rfl⟩
  exact Nat.lt_irrefl _ (hplaced _ h)

end Bus

end ChatRelay
