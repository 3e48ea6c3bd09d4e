import Mathlib.Data.List.Perm.Basic
import ChatRelay.Proofs.Bus.BusRun
/-!
# Delivery to one subscriber

In every run a receiver obtains exactly the values published while its sender is
in its slot, the receiver is open and its buffer has room, in order of
publication and independently of all other receivers. The invariant is a balance
of offered, received, lost and buffered values.
-/

namespace ChatRelay

namespace Bus

variable {α : Type}

/-- Whether a channel accepts a value that is published now. -/
def accepts (bus : Bus α) (n : Nat) : Bool :=
  bus.slots.any (fun taken => taken = some n) && (bus.channels[n]?).any
    Channel.hasRoom

/-- The channels that accept a value published now. -/
def accepting (bus : Bus α) : List Nat :=
  (List.range bus.channels.length).filter bus.accepts

theorem mem_accepting {bus : Bus α} {n : Nat} :
    n ∈ bus.accepting ↔
      some n ∈ bus.slots ∧ ∃ c, bus.channels[n]? = some c ∧
      c.hasRoom = true := by
  rw [accepting, List.mem_filter, accepts, Bool.and_eq_true, List.any_eq_true,
    Option.any_eq_true]
  constructor
  · rintro ⟨-, ⟨taken, hslot, htaken⟩, c, hc, hroom⟩
    obtain rfl := of_decide_eq_true htaken
    exact ⟨hslot, c, hc, hroom⟩
  · rintro ⟨hslot, c, hc, hroom⟩
    have hn := (List.getElem?_eq_some_iff.mp hc).1
    exact ⟨List.mem_range.mpr hn, ⟨_, hslot, decide_eq_true rfl⟩, c, hc, hroom⟩

theorem nodup_accepting (bus : Bus α) : bus.accepting.Nodup :=
  List.nodup_range.filter _

/-- Whether a slot contains a channel with room. -/
def hasRoomAt (channels : List (Channel α)) (taken : Option Nat) : Bool :=
  taken.any fun n => (channels[n]?).any Channel.hasRoom

theorem sendAll_delivered (a : α) (slot : Nat) (slots : List (Option Nat))
    (channels : List (Channel α)) (honce : ∀ n, slots.count (some n) ≤ 1) :
    (sendAll a slot slots channels).1.delivered =
      slots.countP (hasRoomAt channels) := by
  induction slots generalizing slot channels with
  | nil => rfl
  | cons taken slots ih =>
      have hrest : ∀ n, slots.count (some n) ≤ 1 := by
        intro n
        exact (List.count_le_count_cons).trans (honce n)
      cases taken with
      | none =>
          rw [List.countP_cons_of_neg (by simp [hasRoomAt])]
          exact ih (slot + 1) channels hrest
      | some m =>
          cases hm : channels[m]? with
          | none =>
              rw [List.countP_cons_of_neg (by simp [hasRoomAt, hm])]
              simp only [sendAll, hm]
              exact ih (slot + 1) channels hrest
          | some c =>
              -- this channel is in no other slot, so the room of the other
              -- channels is unchanged
              have hother :
                  slots.countP (hasRoomAt (channels.set m (c.send a).2)) =
                  slots.countP (hasRoomAt channels) := by
                apply List.countP_congr
                intro taken htaken
                cases taken with
                | none => exact Iff.rfl
                | some n =>
                    have hne : m ≠ n := by
                      rintro rfl
                      have htwice := honce m
                      rw [List.count_cons_self] at htwice
                      have hpos := List.count_pos_iff.mpr htaken
                      omega
                    simp only [hasRoomAt, Option.any_some,
                      List.getElem?_set_ne hne]
              have htail := ih (slot + 1) (channels.set m (c.send a).2) hrest
              rw [hother] at htail
              cases hroom : c.hasRoom with
              | true =>
                  rw [List.countP_cons_of_pos
                    (by simpa [hasRoomAt, hm] using hroom), ← htail]
                  simp only [sendAll, hm, Channel.send_of_hasRoom hroom]
              | false =>
                  rw [List.countP_cons_of_neg
                    (by simpa [hasRoomAt, hm] using hroom), ← htail]
                  obtain ⟨hsent, -⟩ := Channel.send_of_not_hasRoom hroom a
                  simp only [sendAll, hm]
                  cases hresult : (c.send a).1 with
                  | delivered => exact absurd hresult hsent
                  | full => rfl
                  | closed => rfl

theorem Sound.count_le {bus : Bus α} (h : bus.Sound) (n : Nat) :
    bus.slots.count (some n) ≤ 1 := by
  rw [h.count]
  split
  · exact Nat.le_refl 1
  · exact Nat.zero_le 1

/-- The result of publishing is the number of channels that accepted the
value. -/
theorem Sound.publish_delivered {bus : Bus α} (h : bus.Sound) (a : α) :
    (bus.publish a).1.delivered = bus.accepting.length := by
  have hcount := sendAll_delivered a 0 bus.slots bus.channels h.count_le
  have hperm : (bus.slots.filter (hasRoomAt bus.channels)).Perm
      (bus.accepting.map some) := by
    apply (List.perm_ext_iff_of_nodup ?_ ?_).mpr
    · intro taken
      rw [List.mem_filter, List.mem_map]
      constructor
      · rintro ⟨hslot, hroom⟩
        cases taken with
        | none => exact Bool.noConfusion hroom
        | some n =>
            have hany : (bus.channels[n]?).any Channel.hasRoom = true := hroom
            exact ⟨n,
              mem_accepting.mpr ⟨hslot, (Option.any_eq_true _ _).mp hany⟩, rfl⟩
      · rintro ⟨n, hn, rfl⟩
        obtain ⟨hslot, hroom⟩ := mem_accepting.mp hn
        have hany : (bus.channels[n]?).any Channel.hasRoom = true :=
          (Option.any_eq_true _ _).mpr hroom
        exact ⟨hslot, hany⟩
    · apply List.nodup_iff_count_le_one.mpr
      intro taken
      cases taken with
      | none =>
          rw [List.count_eq_zero.mpr
            (fun hmem => Bool.noConfusion (List.mem_filter.mp hmem).2)]
          exact Nat.zero_le 1
      | some n =>
        exact (List.filter_sublist.count_le (some n)).trans (h.count_le n)
    · exact bus.nodup_accepting.map (Option.some_injective Nat)
  calc (bus.publish a).1.delivered
      = bus.slots.countP (hasRoomAt bus.channels) := hcount
    _ = (bus.slots.filter (hasRoomAt bus.channels)).length :=
    List.countP_eq_length_filter
    _ = (bus.accepting.map some).length := hperm.length_eq
    _ = bus.accepting.length := List.length_map some

/-- Publishing appends the value to the accepting channels and changes no other
channel. -/
theorem Sound.publish_accepting {bus : Bus α} (h : bus.Sound) (a : α) {n : Nat}
    {c : Channel α} (hc : bus.channels[n]? = some c) :
    (bus.publish a).2.channels[n]? =
      some (if n ∈ bus.accepting then { c with queue := c.queue ++ [a] }
        else c) := by
  rw [h.publish_channel, hc, Option.map_some]
  cases hroom : c.hasRoom with
  | true =>
      have htakers : n ∈ bus.accepting ↔ some n ∈ bus.slots := by
        rw [mem_accepting]
        exact ⟨And.left, fun hslot => ⟨hslot, c, hc, hroom⟩⟩
      simp only [htakers, Channel.send_of_hasRoom hroom]
  | false =>
      have htakers : n ∉ bus.accepting := by
        intro hn
        obtain ⟨-, c', hc', hroom'⟩ := mem_accepting.mp hn
        rw [hc, Option.some.injEq] at hc'
        rw [← hc', hroom] at hroom'
        exact Bool.noConfusion hroom'
      rw [if_neg htakers, (Channel.send_of_not_hasRoom hroom a).2, ite_self]

def Received.toList : Received α → List α
  | .value a => [a]
  | .empty | .disconnected => []

theorem receive_toList {bus : Bus α} {n : Nat} {c : Channel α}
    (hc : bus.channels[n]? = some c) :
    (bus.receive n).1.toList = c.queue.take 1 := by
  unfold receive
  rw [hc]
  dsimp only
  split
  · next a queue hqueue => rw [hqueue]; rfl
  · next hqueue =>
      rw [hqueue]
      split <;> rfl

end Bus

namespace BusRun

variable {α β : Type}

/-- The effect of an operation on an existing channel that is not published
to. -/
def Act.effect (x : Act α) (n : Nat) (taken : Bool) (c : Channel α) :
    Channel α :=
  match x with
  | .publish a => if taken then (c.send a).2 else c
  | .receive m => if m = n then { c with queue := c.queue.tail } else c
  | .close m => if m = n then c.close else c
  | .discard m => if m = n then c.discard else c
  | _ => c

theorem channel_insertChannel {bus : Bus α} {n : Nat} {c : Channel α}
    (hc : bus.channels[n]? = some c) (new : Channel α) :
    (bus.insertChannel new).2.channels[n]? = some c := by
  have hn := (List.getElem?_eq_some_iff.mp hc).1
  change (bus.channels ++ [new])[n]? = some c
  rw [List.getElem?_append_left hn, hc]

theorem act_channel {s : BusRun α} (hsound : s.bus.Sound) {n : Nat}
    {c : Channel α} (hc : s.bus.channels[n]? = some c) (x : Act α) :
    (s.act x).bus.channels[n]? =
      some (x.effect n (decide (some n ∈ s.bus.slots)) c) := by
  cases x with
  | subscribe capacity =>
      rw [act]
      cases Channel.create? (α := α) capacity with
      | none => exact hc
      | some new => exact channel_insertChannel hc new
  | guard capacity =>
      rw [act, Bus.subscription?_eq]
      cases Channel.create? (α := α) capacity with
      | none => exact hc
      | some new => exact channel_insertChannel hc new
  | unsubscribe slot => exact hc
  | drop i =>
      rw [act]
      cases s.guards[i]?.join with
      | none => exact hc
      | some subscription => exact hc
  | publish a =>
      change (s.bus.publish a).2.channels[n]? = _
      rw [hsound.publish_channel, hc]
      simp [Act.effect]
  | receive m =>
      change (s.bus.receive m).2.channels[n]? = _
      rw [Bus.receive_channels, List.getElem?_modify, hc]
      rfl
  | close m =>
      change (s.bus.channels.modify m Channel.close)[n]? = _
      rw [List.getElem?_modify, hc]
      rfl
  | discard m =>
      change (s.bus.channels.modify m Channel.discard)[n]? = _
      rw [List.getElem?_modify, hc]
      rfl

theorem effect_capacity (x : Act α) (n : Nat) (taken : Bool) (c : Channel α) :
    (x.effect n taken c).capacity = c.capacity := by
  have hsend : ∀ a, (c.send a).2.capacity = c.capacity := by
    intro a
    cases hroom : c.hasRoom with
    | true => rw [Channel.send_of_hasRoom hroom]
    | false => rw [(Channel.send_of_not_hasRoom hroom a).2]
  cases x with
  | publish a =>
    exact (apply_ite Channel.capacity _ _ _).trans (by rw [hsend, ite_self])
  | receive m => exact (apply_ite Channel.capacity _ _ _).trans (ite_self _)
  | close m => exact (apply_ite Channel.capacity _ _ _).trans (ite_self _)
  | discard m => exact (apply_ite Channel.capacity _ _ _).trans (ite_self _)
  | _ => rfl

theorem effect_length {n : Nat} {c : Channel α}
    (h : c.queue.length ≤ c.capacity) (x : Act α) (taken : Bool) :
    (x.effect n taken c).queue.length ≤ c.capacity := by
  cases x with
  | publish a =>
      cases taken with
      | false => exact h
      | true =>
          change (c.send a).2.queue.length ≤ _
          cases hroom : c.hasRoom with
          | true =>
              rw [Channel.send_of_hasRoom hroom, List.length_append]
              exact ((Channel.hasRoom_iff c).mp hroom).2
          | false =>
              rw [(Channel.send_of_not_hasRoom hroom a).2]
              exact h
  | receive m =>
      change (if m = n then { c with queue := c.queue.tail }
        else c).queue.length ≤ _
      split
      · exact (List.tail_sublist _).length_le.trans h
      · exact h
  | close m =>
      change (if m = n then c.close else c).queue.length ≤ _
      split <;> exact h
  | discard m =>
      change (if m = n then c.discard else c).queue.length ≤ _
      split
      · exact Nat.zero_le _
      · exact h
  | _ => exact h

/-- The contents of a receiver's buffer. -/
def buffered (s : BusRun α) (n : Nat) : List α :=
  (s.bus.channels[n]?).elim [] Channel.queue

def isListening (s : BusRun α) (n : Nat) : Bool :=
  (s.bus.channels[n]?).any Channel.isOpen

/-- The value that an operation publishes while the subscriber's sender is in
its slot, its receiver is open and its buffer is not full. -/
def offered (r : Bus.Subscription) (capacity : Nat) (s : BusRun α) :
    Act α → List α
  | .publish a =>
    if s.bus.slots[r.slot]? = some (some r.channel) ∧
        s.isListening r.channel = true ∧
        (s.buffered r.channel).length < capacity then [a] else []
  | _ => []

/-- The value that an operation receives from a channel. -/
def received (n : Nat) (s : BusRun α) : Act α → List α
  | .receive m => if m = n then (s.bus.receive n).1.toList else []
  | _ => []

/-- The values that are discarded when an operation drops a receiver. -/
def lost (n : Nat) (s : BusRun α) : Act α → List α
  | .discard m => if m = n then s.buffered n else []
  | _ => []

/-- The concatenated results of a function on all operations of a run. -/
def collect (give : BusRun α → Act α → List β) (s : BusRun α) :
    List (Act α) → List β
  | [] => []
  | x :: acts => give s x ++ collect give (s.act x) acts

/-- A subscriber with the given capacity, whose channel can be in its own slot
only. -/
structure Subscribed (s : BusRun α) (r : Bus.Subscription) (capacity : Nat) :
    Prop where
  sound : s.bus.Sound
  home : ∀ i, s.bus.slots[i]? = some (some r.channel) → i = r.slot
  channel : ∃ c, s.bus.channels[r.channel]? = some c ∧ c.capacity = capacity ∧
    c.queue.length ≤ capacity

section

variable {s : BusRun α} {r : Bus.Subscription} {capacity : Nat}

theorem attends_insertChannel (hsound : s.bus.Sound) {x : Act α}
    (hx : x.capacity? = some capacity) {bus : Bus α}
    (h : s.bus.subscription? capacity = some (r, bus)) :
    (s.act x).Subscribed r (max capacity 1) := by
  have hbus := act_asks hx h
  obtain ⟨rfl, rfl⟩ := Bus.subscription?_eq_some h
  refine ⟨(s.act_slotChange x).sound hsound, ?_, ?_⟩
  · intro i hi
    rw [hbus, Bus.slots_insertChannel] at hi
    split at hi
    · assumption
    · exact absurd (hsound.placed_at hi) (Nat.lt_irrefl _)
  · rw [hbus]
    exact ⟨_, List.getElem?_concat_length, rfl, Nat.zero_le _⟩

theorem buffered_insertChannel {x : Act α} (hx : x.capacity? = some capacity)
    {bus : Bus α} (h : s.bus.subscription? capacity = some (r, bus)) :
    (s.act x).buffered r.channel = [] := by
  rw [buffered, act_asks hx h]
  obtain ⟨rfl, rfl⟩ := Bus.subscription?_eq_some h
  change ((s.bus.channels ++ [_])[s.bus.channels.length]?).elim []
    Channel.queue = []
  rw [List.getElem?_concat_length]
  rfl

theorem Subscribed.act (h : s.Subscribed r capacity) (x : Act α) :
    (s.act x).Subscribed r capacity := by
  obtain ⟨c, hc, hcapacity, hlength⟩ := h.channel
  have hplace := (List.getElem?_eq_some_iff.mp hc).1
  refine ⟨(s.act_slotChange x).sound h.sound, ?_, _,
    act_channel h.sound hc x, ?_, ?_⟩
  · intro i hi
    rcases (s.act_slotChange x).slot hi with hold | ⟨hnew, -, -⟩
    · exact h.home i hold
    · exact absurd hnew (Nat.ne_of_lt hplace)
  · rw [effect_capacity, hcapacity]
  · rw [← hcapacity] at hlength ⊢
    exact effect_length hlength x _

theorem Subscribed.run (h : s.Subscribed r capacity) (acts : List (Act α)) :
    (s.run acts).Subscribed r capacity := by
  induction acts generalizing s with
  | nil => exact h
  | cons x acts ih => exact ih (h.act x)

theorem Subscribed.mem_slots (h : s.Subscribed r capacity) :
    some r.channel ∈ s.bus.slots ↔
      s.bus.slots[r.slot]? = some (some r.channel) := by
  constructor
  · intro hmem
    obtain ⟨i, hi⟩ := List.mem_iff_getElem?.mp hmem
    rwa [h.home i hi] at hi
  · exact List.mem_of_getElem?

theorem buffered_eq {n : Nat} {c : Channel α}
    (hc : s.bus.channels[n]? = some c) :
    s.buffered n = c.queue := by
  rw [buffered, hc, Option.elim_some]

theorem isListening_eq {n : Nat} {c : Channel α}
    (hc : s.bus.channels[n]? = some c) :
    s.isListening n = c.isOpen := by
  rw [isListening, hc, Option.any_some]

/-- The balance of one operation: values are lost only with the receiver, none
are added except offered ones, and the order is kept. -/
theorem Subscribed.balance (h : s.Subscribed r capacity) (x : Act α) :
    s.buffered r.channel ++ offered r capacity s x =
      received r.channel s x ++ lost r.channel s x ++
        (s.act x).buffered r.channel := by
  obtain ⟨c, hc, hcapacity, -⟩ := h.channel
  rw [buffered_eq (act_channel h.sound hc x), buffered_eq hc]
  cases x with
  | publish a =>
      -- the channel has room if and only if the receiver is open and buffers
      -- less than its capacity
      have hroom := Channel.hasRoom_iff c
      simp only [offered, received, lost, Act.effect, decide_eq_true_eq,
        h.mem_slots, buffered_eq hc, isListening_eq hc, ← hcapacity, ← hroom,
          List.nil_append]
      by_cases hslot : s.bus.slots[r.slot]? = some (some r.channel)
      · cases hfull : c.hasRoom with
        | true =>
            rw [if_pos ⟨hslot, rfl⟩, if_pos hslot,
              Channel.send_of_hasRoom hfull]
        | false =>
            rw [if_neg (fun hboth => Bool.noConfusion hboth.2), if_pos hslot,
              (Channel.send_of_not_hasRoom hfull a).2, List.append_nil]
      · rw [if_neg (fun hboth => hslot hboth.1), if_neg hslot, List.append_nil]
  | receive m =>
      by_cases hm : m = r.channel
      · simp only [offered, received, lost, Act.effect, if_pos hm,
          Bus.receive_toList hc, List.append_nil]
        cases c.queue <;> rfl
      · simp [offered, received, lost, Act.effect, hm]
  | close m =>
      by_cases hm : m = r.channel <;> simp [offered, received, lost, Act.effect,
        hm, Channel.close]
  | discard m =>
      by_cases hm : m = r.channel
      · simp [offered, received, lost, Act.effect, hm, Channel.discard,
          buffered_eq hc]
      · simp [offered, received, lost, Act.effect, hm]
  | _ => simp [offered, received, lost, Act.effect]

/-- A closed and empty channel. -/
def Dead (s : BusRun α) (n : Nat) : Prop :=
  ∃ c, s.bus.channels[n]? = some c ∧ c.isOpen = false ∧ c.queue = []

theorem gone_discard (hsound : s.bus.Sound) {n : Nat} {c : Channel α}
    (hc : s.bus.channels[n]? = some c) : (s.act (.discard n)).Dead n :=
  ⟨c.discard, by simpa [Act.effect] using act_channel hsound hc (.discard n),
    rfl, rfl⟩

theorem effect_gone {c : Channel α} (hclosed : c.isOpen = false)
    (hempty : c.queue = []) (x : Act α) (n : Nat) (taken : Bool) :
    (x.effect n taken c).isOpen = false ∧ (x.effect n taken c).queue = [] := by
  cases x with
  | publish a =>
      have hsend : (c.send a).2 = c := by
        apply (Channel.send_of_not_hasRoom _ a).2
        rw [Channel.hasRoom, hclosed, Bool.false_and]
      simp only [Act.effect, hsend, ite_self]
      exact ⟨hclosed, hempty⟩
  | receive m =>
      rw [Act.effect, hempty, List.tail_nil]
      split
      · exact ⟨hclosed, rfl⟩
      · exact ⟨hclosed, hempty⟩
  | close m =>
      rw [Act.effect]
      split
      · exact ⟨rfl, hempty⟩
      · exact ⟨hclosed, hempty⟩
  | discard m =>
      rw [Act.effect]
      split
      · exact ⟨rfl, rfl⟩
      · exact ⟨hclosed, hempty⟩
  | _ => exact ⟨hclosed, hempty⟩

theorem Dead.act {n : Nat} (h : s.Dead n) (hsound : s.bus.Sound) (x : Act α) :
    (s.act x).Dead n := by
  obtain ⟨c, hc, hclosed, hempty⟩ := h
  exact ⟨_, act_channel hsound hc x, effect_gone hclosed hempty x n _⟩

theorem Dead.collect (h : s.Dead r.channel) (hsound : s.bus.Sound)
    (capacity : Nat) (acts : List (Act α)) :
    collect (received r.channel) s acts = [] ∧
      collect (lost r.channel) s acts = [] ∧
      collect (offered r capacity) s acts = [] ∧
      (s.run acts).buffered r.channel = [] := by
  induction acts generalizing s with
  | nil =>
      obtain ⟨c, hc, -, hempty⟩ := h
      exact ⟨rfl, rfl, rfl, (buffered_eq hc).trans hempty⟩
  | cons x acts ih =>
      obtain ⟨hreceived, hlost, hoffered, hheld⟩ :=
        ih (h.act hsound x) ((s.act_slotChange x).sound hsound)
      obtain ⟨c, hc, hclosed, hempty⟩ := h
      simp only [BusRun.collect, hreceived, hlost, hoffered, List.append_nil]
      refine ⟨?_, ?_, ?_, hheld⟩
      · cases x with
        | receive m => simp [received, Bus.receive_toList hc, hempty]
        | _ => rfl
      · cases x with
        | discard m => simp [lost, buffered_eq hc, hempty]
        | _ => rfl
      · cases x with
        | publish a => simp [offered, isListening_eq hc, hclosed]
        | _ => rfl

theorem lost_eq_nil {n : Nat} {x : Act α} (hx : x ≠ .discard n) :
    lost n s x = [] := by
  cases x with
  | discard m =>
      have hm : m ≠ n := fun heq => hx (heq ▸ rfl)
      rw [lost, if_neg hm]
  | _ => rfl

theorem collect_lost {n : Nat} {acts : List (Act α)} (h : .discard n ∉ acts) :
    collect (lost n) s acts = [] := by
  induction acts generalizing s with
  | nil => rfl
  | cons x acts ih =>
      obtain ⟨hx, hacts⟩ := List.ne_and_not_mem_of_not_mem_cons h
      rw [collect, lost_eq_nil (Ne.symm hx), ih hacts, List.nil_append]

/-- The balance of a run: what was buffered or offered has been received, was
lost with the receiver, or is still buffered. -/
theorem Subscribed.balance_run (h : s.Subscribed r capacity)
    (acts : List (Act α)) :
    s.buffered r.channel ++ collect (offered r capacity) s acts =
      collect (received r.channel) s acts ++ collect (lost r.channel) s acts ++
        (s.run acts).buffered r.channel := by
  induction acts generalizing s with
  | nil => simp [collect, BusRun.run]
  | cons x acts ih =>
      have hone := h.balance x
      have hrest := ih (h.act x)
      by_cases hx : x = .discard r.channel
      · -- nothing follows the drop of the receiver
        subst hx
        obtain ⟨c, hc, -, -⟩ := h.channel
        obtain ⟨hreceived, hlost, hoffered, hheld⟩ :=
          (gone_discard h.sound hc).collect ((s.act_slotChange _).sound h.sound)
            capacity acts
        rw [run_cons, collect, collect, collect, hreceived, hlost,
          hoffered, hheld]
        simp [offered, received, lost]
      · rw [lost_eq_nil hx, List.append_nil] at hone
        calc s.buffered r.channel ++ collect (offered r capacity) s (x :: acts)
            = (s.buffered r.channel ++ offered r capacity s x) ++
                collect (offered r capacity) (s.act x) acts :=
              (List.append_assoc _ _ _).symm
          _ = received r.channel s x ++
                ((s.act x).buffered r.channel ++
                  collect (offered r capacity) (s.act x) acts) := by
              rw [hone, List.append_assoc]
          _ = _ := by
              rw [hrest, run_cons, collect, collect, lost_eq_nil hx]
              simp only [List.nil_append, List.append_assoc]

/-- Whether an operation does not concern the receiver of another channel. -/
def Act.isFor (n : Nat) : Act α → Bool
  | .receive m | .close m | .discard m => m = n
  | _ => true

/-- Two buses with the same slots and guards that agree on one channel. -/
structure AgreeOn (n : Nat) (s t : BusRun α) : Prop where
  slots : s.bus.slots = t.bus.slots
  guards : s.guards = t.guards
  length : s.bus.channels.length = t.bus.channels.length
  channel : s.bus.channels[n]? = t.bus.channels[n]?

variable {n : Nat} {t : BusRun α}

theorem slots_insertChannel_congr {bus bus' : Bus α}
    (hslots : bus.slots = bus'.slots)
    (hlength : bus.channels.length = bus'.channels.length) (c : Channel α) :
    (bus.insertChannel c).1 = (bus'.insertChannel c).1 ∧
    (bus.insertChannel c).2.slots = (bus'.insertChannel c).2.slots := by
  have hfree : bus.freeSlot = bus'.freeSlot :=
    congrArg (List.findIdx Option.isNone) hslots
  constructor
  · change (⟨bus.freeSlot, bus.channels.length⟩ : Bus.Subscription) = ⟨_, _⟩
    rw [hfree, hlength]
    rfl
  · apply List.ext_getElem?
    intro i
    rw [Bus.slots_insertChannel, Bus.slots_insertChannel, hfree,
      hlength, hslots]

theorem AgreeOn.insertChannel (h : AgreeOn n s t) (c : Channel α) :
    (s.bus.insertChannel c).1 = (t.bus.insertChannel c).1 ∧
      (s.bus.insertChannel c).2.slots = (t.bus.insertChannel c).2.slots ∧
      (s.bus.insertChannel c).2.channels.length =
        (t.bus.insertChannel c).2.channels.length ∧
      (s.bus.insertChannel c).2.channels[n]? =
        (t.bus.insertChannel c).2.channels[n]? := by
  obtain ⟨hplace, hslots⟩ := slots_insertChannel_congr h.slots h.length c
  refine ⟨hplace, hslots, ?_, ?_⟩
  · change (s.bus.channels ++ [c]).length = (t.bus.channels ++ [c]).length
    rw [List.length_append, List.length_append, h.length]
  · change (s.bus.channels ++ [c])[n]? = (t.bus.channels ++ [c])[n]?
    rw [List.getElem?_append, List.getElem?_append, h.length, h.channel]

theorem AgreeOn.modify (h : AgreeOn n s t) (m : Nat)
    (f : Channel α → Channel α) :
    (s.bus.channels.modify m f).length = (t.bus.channels.modify m f).length ∧
      (s.bus.channels.modify m f)[n]? = (t.bus.channels.modify m f)[n]? := by
  constructor
  · rw [List.length_modify, List.length_modify, h.length]
  · rw [List.getElem?_modify, List.getElem?_modify, h.channel]

theorem AgreeOn.act (h : AgreeOn n s t) (hs : s.bus.Sound) (ht : t.bus.Sound)
    (x : Act α) :
    AgreeOn n (s.act x) (t.act x) := by
  cases x with
  | subscribe capacity =>
      rw [BusRun.act, BusRun.act]
      cases Channel.create? (α := α) capacity with
      | none => exact h
      | some c =>
          obtain ⟨-, hslots, hlength, hchannel⟩ := h.insertChannel c
          exact ⟨hslots, h.guards, hlength, hchannel⟩
  | guard capacity =>
      rw [BusRun.act, BusRun.act, Bus.subscription?_eq, Bus.subscription?_eq]
      cases Channel.create? (α := α) capacity with
      | none => exact h
      | some c =>
          obtain ⟨hplace, hslots, hlength, hchannel⟩ := h.insertChannel c
          refine ⟨hslots, ?_, hlength, hchannel⟩
          change s.guards ++ [some (s.bus.insertChannel c).1] =
            t.guards ++ [some (t.bus.insertChannel c).1]
          rw [h.guards, hplace]
  | unsubscribe slot =>
    exact ⟨congrArg (·.set slot none) h.slots, h.guards, h.length, h.channel⟩
  | drop i =>
      rw [BusRun.act, BusRun.act, h.guards]
      cases t.guards[i]?.join with
      | none => exact h
      | some subscription =>
          exact ⟨congrArg (·.set subscription.slot none) h.slots, rfl,
            h.length, h.channel⟩
  | publish a =>
      refine ⟨h.slots, h.guards, ?_, ?_⟩
      · exact (Bus.sendAll_length a 0 s.bus.slots _).trans
          (h.length.trans (Bus.sendAll_length a 0 t.bus.slots _).symm)
      · change (s.bus.publish a).2.channels[n]? =
          (t.bus.publish a).2.channels[n]?
        rw [hs.publish_channel, ht.publish_channel, h.channel, h.slots]
  | receive m =>
      obtain ⟨hlength, hchannel⟩ :=
        h.modify m fun c => { c with queue := c.queue.tail }
      rw [← Bus.receive_channels, ← Bus.receive_channels] at hlength hchannel
      refine ⟨?_, h.guards, hlength, hchannel⟩
      exact (s.bus.receive_slots m).trans
        (h.slots.trans (t.bus.receive_slots m).symm)
  | close m =>
      obtain ⟨hlength, hchannel⟩ := h.modify m Channel.close
      exact ⟨h.slots, h.guards, hlength, hchannel⟩
  | discard m =>
      obtain ⟨hlength, hchannel⟩ := h.modify m Channel.discard
      exact ⟨h.slots, h.guards, hlength, hchannel⟩

theorem alike_act_other {x : Act α} (hx : x.isFor n = false) :
    AgreeOn n (s.act x) s := by
  cases x with
  | receive m =>
      have hm : m ≠ n := of_decide_eq_false hx
      refine ⟨s.bus.receive_slots m, rfl, ?_, ?_⟩
      · change (s.bus.receive m).2.channels.length = _
        rw [Bus.receive_channels, List.length_modify]
      · change (s.bus.receive m).2.channels[n]? = _
        rw [Bus.receive_channels, List.getElem?_modify_ne _ _ hm]
  | close m =>
      have hm : m ≠ n := of_decide_eq_false hx
      exact ⟨rfl, rfl, List.length_modify _ _ _, List.getElem?_modify_ne _ _ hm⟩
  | discard m =>
      have hm : m ≠ n := of_decide_eq_false hx
      exact ⟨rfl, rfl, List.length_modify _ _ _, List.getElem?_modify_ne _ _ hm⟩
  | _ => exact Bool.noConfusion hx

theorem AgreeOn.trans {u : BusRun α} (h : AgreeOn n s t) (h' : AgreeOn n t u) :
    AgreeOn n s u :=
  ⟨h.slots.trans h'.slots, h.guards.trans h'.guards, h.length.trans h'.length,
    h.channel.trans h'.channel⟩

theorem AgreeOn.received (h : AgreeOn n s t) (x : Act α) :
    received n s x = received n t x := by
  cases x with
  | receive m =>
      have hsame : (s.bus.receive n).1.toList = (t.bus.receive n).1.toList := by
        cases hc : t.bus.channels[n]? with
        | none => rw [Bus.receive, Bus.receive, h.channel, hc]
        | some c =>
          rw [Bus.receive_toList hc, Bus.receive_toList (h.channel.trans hc)]
      exact congrArg (fun given => if m = n then given else []) hsame
  | _ => rfl

theorem received_other {x : Act α} (hx : x.isFor n = false) :
    received n s x = [] := by
  cases x with
  | receive m => exact if_neg (of_decide_eq_false hx)
  | _ => rfl

/-- What a receiver obtains does not depend on operations on other receivers. -/
theorem AgreeOn.run (h : AgreeOn n s t) (hs : s.bus.Sound) (ht : t.bus.Sound)
    (acts : List (Act α)) :
    collect (BusRun.received n) s acts =
        collect (BusRun.received n) t (acts.filter (Act.isFor n)) ∧
      AgreeOn n (s.run acts) (t.run (acts.filter (Act.isFor n))) := by
  induction acts generalizing s t with
  | nil => exact ⟨rfl, h⟩
  | cons x acts ih =>
      have hs' := (s.act_slotChange x).sound hs
      cases hx : x.isFor n with
      | true =>
          obtain ⟨hgiven, hrest⟩ :=
            ih (h.act hs ht x) hs' ((t.act_slotChange x).sound ht)
          rw [List.filter_cons_of_pos hx]
          refine ⟨?_, hrest⟩
          rw [collect, collect, hgiven, h.received]
      | false =>
          obtain ⟨hgiven, hrest⟩ := ih ((alike_act_other hx).trans h) hs' ht
          rw [List.filter_cons_of_neg (by rw [hx]; exact Bool.noConfusion)]
          refine ⟨?_, hrest⟩
          rw [collect, received_other hx, hgiven, List.nil_append]

end

/-- The delivery theorem. In every run the values that a subscriber received,
that were lost with its receiver and that it still buffers are, in this order,
the values published while its sender was in its slot, its receiver was open and
its buffer had room. The buffer never exceeds its capacity. Removing all
operations on other receivers does not change what the subscriber receives.
Publishing appends the value once to each channel of a set, leaves all other
channels unchanged, and returns the size of the set. -/
theorem delivered_exactly :
    (∀ (before after : List (Act α)) (x : Act α) (capacity : Nat)
        (r : Bus.Subscription) (bus : Bus α), x.capacity? = some capacity →
      (run {} before).bus.subscription? capacity = some (r, bus) →
      let s := (run {} before).act x
      (collect (received r.channel) s after ++
          collect (lost r.channel) s after ++
          (s.run after).buffered r.channel =
            collect (offered r (max capacity 1)) s after) ∧
        (.discard r.channel ∉ after → collect (lost r.channel) s after = []) ∧
        ((s.run after).buffered r.channel).length ≤ max capacity 1 ∧
        collect (received r.channel) s (after.filter (Act.isFor r.channel)) =
          collect (received r.channel) s after ∧
        (s.run (after.filter (Act.isFor r.channel))).buffered r.channel =
          (s.run after).buffered r.channel) ∧
    ∀ (acts : List (Act α)) (a : α),
      let bus := (run {} acts).bus
      (bus.publish a).1.delivered = bus.accepting.length ∧ bus.accepting.Nodup ∧
        ∀ n c, bus.channels[n]? = some c →
          (bus.publish a).2.channels[n]? =
            some (if n ∈ bus.accepting then { c with queue := c.queue ++ [a] }
              else c) := by
  constructor
  · intro before after x capacity r bus hx hjoin s
    have hbefore : (run {} before).bus.Sound := run_sound Bus.sound_empty before
    have hattends : s.Subscribed r (max capacity 1) :=
      attends_insertChannel hbefore hx hjoin
    have hbalance := hattends.balance_run after
    have hempty : s.buffered r.channel = [] := buffered_insertChannel hx hjoin
    rw [hempty, List.nil_append] at hbalance
    obtain ⟨c, hc, -, hlength⟩ := (hattends.run after).channel
    have hsame : AgreeOn r.channel s s := ⟨rfl, rfl, rfl, rfl⟩
    obtain ⟨hgiven, halike⟩ := hsame.run hattends.sound hattends.sound after
    refine ⟨hbalance.symm, collect_lost, ?_, hgiven.symm, ?_⟩
    · rw [buffered_eq hc]
      exact hlength
    · rw [buffered, ← halike.channel, buffered]
  · intro acts a bus
    have hsound : bus.Sound := run_sound Bus.sound_empty acts
    exact ⟨hsound.publish_delivered a, bus.nodup_accepting,
      fun n c hc => hsound.publish_accepting a hc⟩

/-- The second of two subscribers has capacity two and misses the third value.
The first one's slot is freed, reused and freed again, and finally the second
receiver is dropped. -/
def sampleActs : List (Act Nat) :=
  [.publish 10, .receive 1, .publish 11, .publish 12, .publish 13,
    .unsubscribe 0, .subscribe 3, .close 2, .receive 1, .publish 14,
      .unsubscribe 1, .publish 15]

theorem sampleActs_delivered :
    let s : BusRun Nat := (run {} [.guard 1]).act (.subscribe 2)
    collect (received 1) s sampleActs = [10, 11] ∧
      (s.run sampleActs).buffered 1 = [12, 14] ∧
      collect (offered ⟨1, 1⟩ 2) s sampleActs = [10, 11] ++ [12, 14] := by
  intro s
  have hbalance :=
    (delivered_exactly.1 [.guard 1] sampleActs (.subscribe 2) 2 ⟨1, 1⟩
      s.bus rfl rfl).1
  have hreceived : collect (received 1) s sampleActs = [10, 11] := by decide
  have hlost : collect (lost 1) s sampleActs = [] := by decide
  have hheld : (s.run sampleActs).buffered 1 = [12, 14] := by decide
  refine ⟨hreceived, hheld, ?_⟩
  rw [← hreceived, ← hheld,
    ← List.append_nil (collect (received 1) s sampleActs), ← hlost]
  exact hbalance.symm

end BusRun

end ChatRelay
