import ChatRelay.Proofs.Bus.Publish
import ChatRelay.Chat.Session
/-!
# The steps of handling an event

A session handles an event in two steps. The first stores one message and leaves
the bus alone. The second publishes one event and leaves the store alone.
-/

namespace ChatRelay

namespace Room

/-- The effect of publishing on the parts of a room. -/
structure Publishing (event : Event) (room room' : Room) : Prop where
  store : room'.store = room.store
  fault : room'.fault = room.fault
  bus :
    room'.bus = if room.bus.known then (room.bus.publish event).2 else room.bus

theorem foldl_channelFull (kind : String) (full : List Nat) (room : Room) :
    let room' := full.foldl (fun room slot =>
      (room.count (.dropped kind) 1).record [.channelFull kind slot]) room
    room'.store = room.store ∧ room'.fault = room.fault ∧
    room'.bus = room.bus := by
  induction full generalizing room with
  | nil => exact ⟨rfl, rfl, rfl⟩
  | cons slot full ih => exact ih _

theorem publishing (room : Room) (event : Event) :
    Publishing event room (room.publish event).2 := by
  cases hknown : room.bus.known with
  | false =>
      have hsame : (room.publish event).2 = room := by simp [publish, hknown]
      rw [hsame]
      exact ⟨rfl, rfl, by simp [hknown]⟩
  | true =>
      obtain ⟨hstore, hfault, hbus⟩ := foldl_channelFull event.kind.name
        (room.bus.publish event).1.full
          { room with bus := (room.bus.publish event).2 }
      simp only [publish, hknown, if_true]
      exact ⟨hstore, hfault, hbus.trans (by simp [hknown])⟩

theorem Publishing.delivered {event : Event} {room room' : Room}
    (h : Publishing event room room') : room.bus.Delivered event room'.bus := by
  rw [h.bus]
  split
  · next hknown => exact Bus.delivered_publish hknown event
  · next hknown =>
      exact Bus.delivered_unknown (Bool.eq_false_iff.mpr hknown) event

end Room

namespace Session

/-- The step that stores the message of an event for a user. The message is
appended to the store, and it is the message of the event that is published
next: of the kind and with the text of the client's event, sent by the user, and
created at the current system time. -/
structure Persists (user : Int) (now : Time) (event : Event) (room : Room)
    (stored : Event) (room' : Room) : Prop where
  store : room'.store.messages = room.store.messages ++ [stored.message]
  bus : room'.bus = room.bus
  fault : room'.fault = room.fault
  sender : stored.message.sender = user
  kind : stored.message.kind = event.message.kind
  text : stored.message.text = event.message.text
  createdAt : stored.message.createdAt = room.unixMillis now
  updatedAt : stored.message.updatedAt = room.unixMillis now

theorem persists {room : Room} (hfault : room.fault = none) (user : Int)
    (now : Time) (event : Event) :
    ∃ stored, (persist user now event room).1 = some stored ∧
      Persists user now event room stored (persist user now event room).2 := by
  simp only [persist, Room.keepMessage, hfault]
  exact ⟨_, rfl, rfl, rfl, hfault ▸ rfl, rfl, rfl, rfl, rfl, rfl⟩

/-- The step that publishes an event: every open channel that is subscribed and
has room takes the event, and nothing else is sent. -/
structure Publishes (event : Event) (room room' : Room) : Prop where
  store : room'.store = room.store
  fault : room'.fault = room.fault
  bus : room.bus.Delivered event room'.bus

theorem publishes (event : Event) (room : Room) :
    Publishes event room (publish (some event) room) := by
  have h := room.publishing event
  exact ⟨h.store, h.fault, h.delivered⟩

end Session

end ChatRelay
