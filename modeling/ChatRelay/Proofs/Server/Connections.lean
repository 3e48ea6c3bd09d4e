import ChatRelay.Proofs.Link.Output
import ChatRelay.Proofs.Server.AtomicSteps
/-!
# All connections of a server

A transition system of clients, connection tasks and the shared room. Connection
tasks are interleaved by atomic steps, clients act on their sockets at any time,
and between any two steps an event may be published or the rest of the room may
change. Its invariant is that the occupied slots of the bus correspond to the
sessions.
-/

namespace ChatRelay

/-- A request with the time and the store at which it was read. -/
structure RequestRecord where
  now : Time
  request : Request
  store : Store

/-- A client with its connection task and its history. -/
structure Client where
  task : ConnectionTask
  /-- The sent bytes that the client has taken, or that were lost when it
  disconnected. -/
  taken : Bytes := []
  request : Option RequestRecord := none
  /-- The number of events that had been published when its session
  subscribed. -/
  since : Option Nat := none
  /-- The number of events that had been published when its session ended. -/
  left : Option Nat := none
  /-- The events accepted by the channel of its session, with their numbers. -/
  accepted : List (Event × Nat) := []

/-- The actions of a client on its socket. -/
inductive SocketAction where
  | deliver (bytes : Bytes)
  | finish
  | leave
  | pauseReading
  | resumeReading
  | collect

namespace ConnectionTask

/-- The request that a step reads. -/
def request? (step : AtomicStep) (c : ConnectionTask) (room : Room) :
    Option RequestRecord :=
  match step, c.phase, c.connection.read.1 with
  | .readRequest now, .awaiting, .frame frame =>
    (Request.decode frame).toOption.map fun request =>
      ⟨now, request, room.store⟩
  | _, _, _ => none

/-- Whether a step ends the session because reading fails or the task is
dropped. -/
def ends (step : AtomicStep) (c : ConnectionTask) : Bool :=
  match step with
  | .readFrame _ => (c.connection.read.1 matches .error _)
  | .cancel _ => true
  | _ => false

end ConnectionTask

namespace Client

def session? (g : Client) : Option Session := g.task.session?

/-- All bytes sent to the client. -/
def delivered (g : Client) : Bytes := g.taken ++ g.task.connection.sent

/-- All bytes sent to the client and the bytes waiting for room. -/
def output (g : Client) : Bytes := g.taken ++ g.task.connection.output

/-- Perform a step and record its history, where `count` events have been
published. -/
def perform (router : Room.Router) (buffer : Nat) (step : AtomicStep)
    (room : Room) (count : Nat) (g : Client) : Client :=
  let task := (g.task.perform router buffer step room).1
  { g with
    task
    request := (g.task.request? step room).or g.request
    since :=
      if g.session?.isNone && task.session?.isSome then some count else g.since
    left :=
      if g.session?.isSome && g.task.ends step then some count else g.left }

def onSocket (g : Client) (f : Socket → Socket) : Client :=
  { g with task.connection.socket := f g.task.connection.socket }

def socketAction (g : Client) : SocketAction → Client
  | .deliver bytes => g.onSocket (·.deliver bytes)
  | .finish => g.onSocket Socket.finish
  | .leave => { g.onSocket Socket.leave with taken := g.delivered }
  | .pauseReading => g.onSocket fun s => { s with reading := false }
  | .resumeReading => g.onSocket fun s => { s with reading := true }
  | .collect =>
    { g.onSocket (·.collect.2) with
      taken := g.taken ++ g.task.connection.socket.collect.1 }

/-- Record a published event, if the channel of the session accepted it. -/
def offer (room room' : Room) (event : Event) (number : Nat) (g : Client) :
    Client :=
  match g.session? with
  | none => g
  | some session =>
    if session.waiting room' = session.waiting room ++ [event] then
      { g with accepted := g.accepted ++ [(event, number)] }
    else g

end Client

/-- A room, all clients that have connected, and all published events. -/
structure Connections where
  room : Room
  clients : List Client := []
  published : List Event := []

namespace Connections

/-- The moves of the transition system. -/
inductive Move where
  /-- A client connects, with a frame limit. -/
  | connect (limit : Nat) (context : Context)
  | socketAction (i : Nat) (x : SocketAction)
  | perform (i : Nat) (step : AtomicStep)
  | publish (event : Event)
  /-- Anything but the bus changes. -/
  | changeRoom (room : Room)

/-- The client of a new connection. -/
def newClient (limit : Nat) (context : Context) : Client :=
  { task := { connection := .ofLimit context.connection limit, context } }

def publish (conns : Connections) (event : Event) : Connections :=
  let room := (conns.room.publish event).2
  { room
    clients :=
    conns.clients.map
      (Client.offer conns.room room event conns.published.length)
    published := conns.published ++ [event] }

def perform (router : Room.Router) (buffer i : Nat) (step : AtomicStep)
    (conns : Connections) : Connections :=
  match conns.clients[i]? with
  | none => conns
  | some g =>
    { conns with
      room := (g.task.perform router buffer step conns.room).2
      clients := conns.clients.set i
        (g.perform router buffer step conns.room conns.published.length) }

def move (router : Room.Router) (buffer : Nat) (conns : Connections) :
    Move → Connections
  | .connect limit context =>
    { conns with clients := conns.clients ++ [newClient limit context] }
  | .socketAction i x =>
    { conns with clients := conns.clients.modify i (·.socketAction x) }
  | .perform i step => conns.perform router buffer i step
  | .publish event => conns.publish event
  | .changeRoom room =>
    { conns with room := { room with bus := conns.room.bus } }

def run (router : Room.Router) (buffer : Nat) (conns : Connections)
    (moves : List Move) : Connections :=
  moves.foldl (move router buffer) conns

/-- A property preserved by every move is preserved by runs. -/
theorem run_keeps {router : Room.Router} {buffer : Nat} {P : Connections → Prop}
    (hmove : ∀ conns move, P conns → P (conns.move router buffer move))
    {conns : Connections} (h : P conns) (moves : List Move) :
    P (conns.run router buffer moves) := by
  induction moves generalizing conns with
  | nil => exact h
  | cons move moves ih => exact ih (hmove conns move h)

end Connections

/-- The occupied slots of a bus are those of the given sessions, one for
each. -/
structure SlotsHeld (bus : Bus Event)
    (sessions : List (Option Session)) : Prop where
  sound : bus.Sound
  holds : ∀ session, some session ∈ sessions →
    bus.slots[session.subscription.slot]? =
      some (some session.subscription.channel)
  held : ∀ {slot channel : Nat}, bus.slots[slot]? = some (some channel) →
    ∃ session, some session ∈ sessions ∧ session.subscription = ⟨slot, channel⟩
  apart : ∀ {i j : Nat} {s t : Session}, sessions[i]? = some (some s) →
    sessions[j]? = some (some t) → s.subscription.slot = t.subscription.slot →
    i = j

namespace SlotsHeld

variable {buffer : Nat} {bus bus' : Bus Event}
    {sessions : List (Option Session)}
  {before after : Option Session} {i j : Nat} {s t : Session}

theorem empty : SlotsHeld {} [] :=
  ⟨Bus.sound_empty, by simp, by simp, by simp⟩

/-- Sessions have distinct channels. -/
theorem channel_apart (h : SlotsHeld bus sessions)
    (hi : sessions[i]? = some (some s)) (hj : sessions[j]? = some (some t))
    (hchannel : s.subscription.channel = t.subscription.channel) :
    i = j := by
  apply h.apart hi hj
  apply h.sound.once (h.holds s (List.mem_of_getElem? hi))
  rw [hchannel]
  exact h.holds t (List.mem_of_getElem? hj)

/-- Without sessions no slot is occupied. -/
theorem occupied_eq_zero (h : SlotsHeld bus sessions)
    (hnone : ∀ session, some session ∉ sessions) :
    bus.occupied = 0 := by
  apply List.countP_eq_zero.mpr
  intro taken htaken hsome
  obtain ⟨slot, hslot⟩ := List.mem_iff_getElem?.mp htaken
  obtain ⟨channel, rfl⟩ := Option.isSome_iff_exists.mp hsome
  obtain ⟨session, hsession, -⟩ := h.held hslot
  exact hnone session hsession

/-- The invariant depends on the slots and the number of channels only. -/
theorem congr (h : SlotsHeld bus sessions) (hslots : bus'.slots = bus.slots)
    (hlength : bus'.channels.length = bus.channels.length) :
    SlotsHeld bus' sessions := by
  refine ⟨(Bus.SlotChange.kept hslots hlength).sound h.sound, ?_, ?_, h.apart⟩
  · rw [hslots]
    exact h.holds
  · rw [hslots]
    exact h.held

theorem concat_none (h : SlotsHeld bus sessions) :
    SlotsHeld bus (sessions ++ [none]) := by
  have hat {i : Nat} {s : Session}
      (hi : (sessions ++ [none])[i]? = some (some s)) :
      sessions[i]? = some (some s) := by
    rw [List.getElem?_append] at hi
    split at hi
    · exact hi
    · have hmem := List.mem_of_getElem? hi
      simp at hmem
  refine ⟨h.sound, fun s hs => h.holds s (by simpa using hs), fun hslot => ?_,
    fun hi hj => h.apart (hat hi) (hat hj)⟩
  obtain ⟨s, hs, hsubscription⟩ := h.held hslot
  exact ⟨s, List.mem_append_left _ hs, hsubscription⟩

theorem subscribed (h : SlotsHeld bus sessions) (hi : sessions[i]? = some none)
    (hbus : bus.subscription? buffer = some (s.subscription, bus')) :
    SlotsHeld bus' (sessions.set i (some s)) := by
  obtain ⟨hsubscription, rfl⟩ := Bus.subscription?_eq_some hbus
  have hlength := (List.getElem?_eq_some_iff.mp hi).1
  have hslot : s.subscription.slot = bus.freeSlot := by rw [hsubscription]
  have hchannel : s.subscription.channel = bus.channels.length := by
    rw [hsubscription]
  have hfree (t : Session) (ht : some t ∈ sessions) :
      t.subscription.slot ≠ bus.freeSlot := by
    intro heq
    exact bus.freeSlot_not_taken t.subscription.channel (heq ▸ h.holds t ht)
  refine ⟨(Bus.SlotChange.joined _).sound h.sound, fun t ht => ?_,
    fun {slot channel} htaken => ?_, fun {j k t u} hj hk heq => ?_⟩
  · rw [Bus.slots_insertChannel]
    rcases List.mem_or_eq_of_mem_set ht with hold | hnew
    · rw [if_neg (hfree t hold)]
      exact h.holds t hold
    · obtain rfl := Option.some.inj hnew
      rw [if_pos hslot, hchannel]
  · rw [Bus.slots_insertChannel] at htaken
    split at htaken
    · next heq =>
      obtain rfl := Option.some.inj (Option.some.inj htaken)
      exact ⟨s, List.mem_set hlength _, by rw [hsubscription, heq]⟩
    · obtain ⟨t, ht, hsame⟩ := h.held htaken
      obtain ⟨k, hk⟩ := List.mem_iff_getElem?.mp ht
      have hne : i ≠ k := by
        rintro rfl
        exact nomatch hi.symm.trans hk
      exact
        ⟨t, List.mem_of_getElem? ((List.getElem?_set_ne hne).trans hk), hsame⟩
  · rw [List.getElem?_set] at hj hk
    split at hj
    · next hij =>
      split at hk
      · next hik => exact hij.symm.trans hik
      · -- an old session would be in the free slot
        obtain rfl : s = t := by simpa [hij ▸ hlength] using hj
        exact absurd (heq.symm.trans hslot) (hfree u (List.mem_of_getElem? hk))
    · split at hk
      · next hik =>
        obtain rfl : s = u := by simpa [hik ▸ hlength] using hk
        exact absurd (heq.trans hslot) (hfree t (List.mem_of_getElem? hj))
      · exact h.apart hj hk heq

theorem unsubscribed (h : SlotsHeld bus sessions)
    (hi : sessions[i]? = some (some s)) :
    SlotsHeld (bus.unsubscribe s.subscription.slot) (sessions.set i none) := by
  have hat {j : Nat} {t : Session}
      (hj : (sessions.set i none)[j]? = some (some t)) :
      i ≠ j ∧ sessions[j]? = some (some t) := by
    rw [List.getElem?_set] at hj
    split at hj
    · split at hj <;> simp at hj
    · next hne => exact ⟨hne, hj⟩
  refine ⟨(Bus.SlotChange.freed _).sound h.sound, fun t ht => ?_,
    fun {slot channel} htaken => ?_, fun hj hk => h.apart (hat hj).2 (hat hk).2⟩
  · obtain ⟨j, hj⟩ := List.mem_iff_getElem?.mp ht
    obtain ⟨hne, hold⟩ := hat hj
    rw [Bus.slots_unsubscribe]
    exact ⟨fun heq => hne (h.apart hi hold heq.symm),
      h.holds t (List.mem_of_getElem? hold)⟩
  · obtain ⟨hslot, hold⟩ := (Bus.slots_unsubscribe _ _ _ _).mp htaken
    obtain ⟨t, ht, hsame⟩ := h.held hold
    obtain ⟨j, hj⟩ := List.mem_iff_getElem?.mp ht
    have hne : i ≠ j := by
      rintro rfl
      obtain rfl := Option.some.inj (Option.some.inj (hi.symm.trans hj))
      exact hslot (by rw [hsame])
    exact ⟨t, List.mem_of_getElem? ((List.getElem?_set_ne hne).trans hj), hsame⟩

/-- The invariant is preserved by the effect of an atomic step. -/
theorem effect (h : SlotsHeld bus sessions) (hi : sessions[i]? = some before)
    (heffect : ConnectionTask.Effect buffer bus bus' before after) :
    SlotsHeld bus' (sessions.set i after) := by
  obtain ⟨hlength, hbefore⟩ := List.getElem?_eq_some_iff.mp hi
  have hsame : sessions.set i before = sessions := by
    rw [← hbefore, List.set_getElem_self]
  cases heffect with
  | unchanged hbus => rwa [hsame, hbus]
  | @modified session f hbus =>
      rw [hsame, hbus]
      exact h.congr rfl (List.length_modify f bus.channels _)
  | subscribed hbus => exact h.subscribed hi hbus
  | @unsubscribed session f hbus =>
      rw [hbus]
      exact (h.unsubscribed hi).congr rfl (List.length_modify f bus.channels _)

end SlotsHeld

end ChatRelay
