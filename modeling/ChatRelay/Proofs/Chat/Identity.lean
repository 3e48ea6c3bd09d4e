import Mathlib.Data.List.Forall2
import ChatRelay.Chat.Session
/-!
# Claims of a client

A client may claim any identifier, sender and times for its message. A session
uses only the kind and the text, so two frames that agree in these are handled
alike: with the same fresh identifiers the resulting rooms are equal, and with
others they differ in identifiers only.
-/

namespace ChatRelay

namespace Channel

variable {α β : Type}

/-- The channel with a function applied to its queue. -/
def map (f : α → β) (c : Channel α) : Channel β :=
  { capacity := c.capacity, queue := c.queue.map f, isOpen := c.isOpen }

theorem send_map (f : α → β) (c : Channel α) (a : α) :
    (c.map f).send (f a) = ((c.send a).1, (c.send a).2.map f) := by
  unfold send map
  simp only [List.length_map]
  split
  · rfl
  · split
    · simp only [List.map_append, List.map_cons, List.map_nil]
    · rfl

end Channel

namespace Bus

variable {α β : Type}

/-- The bus with a function applied to all queues. -/
def map (f : α → β) (bus : Bus α) : Bus β :=
  { known := bus.known
    slots := bus.slots
    channels := bus.channels.map (Channel.map f) }

theorem sendAll_map (f : α → β) (a : α) (slot : Nat) (slots : List (Option Nat))
    (channels : List (Channel α)) :
    sendAll (f a) slot slots (channels.map (Channel.map f)) =
      ((sendAll a slot slots channels).1,
        (sendAll a slot slots channels).2.map (Channel.map f)) := by
  induction slots generalizing slot channels with
  | nil => rfl
  | cons taken slots ih =>
      cases taken with
      | none => exact ih (slot + 1) channels
      | some n =>
          cases hn : channels[n]? with
          | none =>
              simp only [sendAll, List.getElem?_map, hn, Option.map_none]
              exact ih (slot + 1) channels
          | some c =>
              have hrest := ih (slot + 1) (channels.set n (c.send a).2)
              rw [List.map_set] at hrest
              simp only [sendAll, List.getElem?_map, hn, Option.map_some,
                Channel.send_map, hrest]
              cases (c.send a).1 <;> rfl

theorem publish_map (f : α → β) (bus : Bus α) (a : α) :
    (bus.map f).publish (f a) =
      ((bus.publish a).1, (bus.publish a).2.map f) := by
  simp only [publish, map, sendAll_map]

end Bus

def Message.withoutIds (m : Message) : Message := { m with id := "" }

def Event.withoutIds : Event → Event
  | newMessage m => newMessage m.withoutIds

/-- The room with all identifiers erased, the unused ones included. -/
def Room.withoutIds (room : Room) : Room :=
  { room with
    store :=
      { room.store with messages := room.store.messages.map Message.withoutIds }
    bus := room.bus.map Event.withoutIds
    supply := { room.supply with uuid := fun _ => .nil } }

namespace Room

theorem record_withoutIds (room : Room) (rs : List Record) :
    (room.record rs).withoutIds = room.withoutIds.record rs := rfl

theorem foldl_dropped_withoutIds (kind : String) (full : List Nat)
    (room : Room) :
    (full.foldl (fun room slot =>
        (room.count (.dropped kind) 1).record [.channelFull kind slot])
          room).withoutIds =
      full.foldl (fun room slot =>
        (room.count (.dropped kind) 1).record [.channelFull kind slot])
            room.withoutIds := by
  induction full generalizing room with
  | nil => rfl
  | cons slot full ih => exact ih _

/-- Publishing depends on no identifier. -/
theorem publish_withoutIds (room : Room) (event : Event) :
    (room.publish event).2.withoutIds =
      (room.withoutIds.publish event.withoutIds).2 := by
  have hbus : room.withoutIds.bus.publish event.withoutIds =
      ((room.bus.publish event).1, (room.bus.publish event).2.map
        Event.withoutIds) :=
    room.bus.publish_map Event.withoutIds event
  have hkind : event.withoutIds.kind = event.kind := rfl
  have hknown : room.withoutIds.bus.known = room.bus.known := rfl
  simp only [publish, hbus, hkind, hknown]
  cases room.bus.known with
  | false => rfl
  | true =>
      have hfold :=
        foldl_dropped_withoutIds event.kind.name (room.bus.publish event).1.full
          { room with bus := (room.bus.publish event).2 }
      simp only [if_true]
      rw [show ({ room.withoutIds with
            bus := (room.bus.publish event).2.map Event.withoutIds } : Room) =
          ({ room with bus := (room.bus.publish event).2 } : Room).withoutIds
        from rfl, ← hfold]
      rfl

end Room

/-- Two messages of one kind with one text. -/
structure Event.SameContent (event other : Event) : Prop where
  kind : event.message.kind = other.message.kind
  text : event.message.text = other.message.text

namespace Session

variable {user : Int} {now : Time} {room other : Room} {event event' : Event}
    {frame frame' : Bytes}

/-- Stamping replaces everything that a client may claim. -/
theorem stamp_congr (h : event.SameContent event') (user millis : Int) :
    stamp user millis event.message = stamp user millis event'.message := by
  simp only [stamp, h.kind, h.text]

theorem persist_congr (h : event.SameContent event') (user : Int) (now : Time)
    (room : Room) :
    persist user now event room = persist user now event' room := by
  simp only [persist, stamp_congr h]

theorem handleEvent_congr (h : event.SameContent event') (user : Int)
    (now : Time) (room : Room) :
    handleEvent user now event room = handleEvent user now event' room := by
  simp only [handleEvent, persist_congr h]

/-- Storing a message depends on no stored identifier and gives the message a
fresh one. -/
theorem persist_withoutIds (user : Int) (now : Time) (event : Event)
    (hroom : room.withoutIds = other.withoutIds) :
    (persist user now event room).1.map Event.withoutIds =
      (persist user now event other).1.map Event.withoutIds ∧
      (persist user now event room).2.withoutIds =
        (persist user now event other).2.withoutIds := by
  have hfault : room.fault = other.fault := congrArg (·.fault) hroom
  have hwall : room.wall = other.wall := congrArg (·.wall) hroom
  simp only [persist, Room.keepMessage, Room.unixMillis, hfault, hwall]
  cases other.fault with
  | some why =>
      refine ⟨rfl, ?_⟩
      simp only [Room.record_withoutIds, hroom]
  | none =>
      refine ⟨rfl, ?_⟩
      have hkept (room : Room) (message : Message) :
          Room.withoutIds { room.takeUuid.2 with
            store :=
              room.takeUuid.2.store.addMessage room.takeUuid.1 message } =
          { room.withoutIds with
            store := { room.withoutIds.store with
              messages :=
                room.withoutIds.store.messages ++ [message.withoutIds] }
            supply := { room.withoutIds.supply with
              taken := room.withoutIds.supply.taken + 1 } } := by
        simp only [Room.withoutIds, Room.takeUuid, Store.addMessage,
          List.map_append, List.map_cons, List.map_nil]
        rfl
      rw [hkept, hkept, hroom]

theorem publish_withoutIds (told : Option Event) (room : Room) :
    (publish told room).withoutIds =
      publish (told.map Event.withoutIds) room.withoutIds := by
  cases told with
  | none => rfl
  | some event => exact room.publish_withoutIds event

theorem handleEvent_withoutIds (user : Int) (now : Time) (event : Event)
    (hroom : room.withoutIds = other.withoutIds) :
    (handleEvent user now event room).withoutIds =
      (handleEvent user now event other).withoutIds := by
  obtain ⟨hevent, hkept⟩ := persist_withoutIds user now event hroom
  simp only [handleEvent, publish_withoutIds, hevent, hkept]

theorem handleFrame_withoutIds (user : Int) (now : Time) (frame : Bytes)
    (hroom : room.withoutIds = other.withoutIds) :
    (handleFrame user now room frame).withoutIds =
      (handleFrame user now other frame).withoutIds := by
  unfold handleFrame
  split
  · exact handleEvent_withoutIds user now _ hroom
  · rw [Room.record_withoutIds, Room.record_withoutIds, hroom]

/-- Two frames with events of the same content. -/
def SameEvents (frame frame' : Bytes) : Prop :=
  ∃ event event', eventOf frame = .ok event ∧ eventOf frame' = .ok event' ∧
    event.SameContent event'

theorem handleFrame_congr (h : SameEvents frame frame') (user : Int)
    (now : Time) (room : Room) :
    handleFrame user now room frame = handleFrame user now room frame' := by
  obtain ⟨event, event', hframe, hframe', hwording⟩ := h
  simp only [handleFrame, hframe, hframe', handleEvent_congr hwording]

theorem handleFrames_congr {frames frames' : List Bytes}
    (h : List.Forall₂ SameEvents frames frames') (user : Int) (now : Time)
    (room : Room) :
    frames.foldl (handleFrame user now) room =
      frames'.foldl (handleFrame user now) room := by
  induction h generalizing room with
  | nil => rfl
  | cons hsame _ ih =>
      rw [List.foldl_cons, List.foldl_cons, handleFrame_congr hsame]
      exact ih _

theorem handleFrames_withoutIds (frames : List Bytes) (user : Int) (now : Time)
    (hroom : room.withoutIds = other.withoutIds) :
    (frames.foldl (handleFrame user now) room).withoutIds =
      (frames.foldl (handleFrame user now) other).withoutIds := by
  induction frames generalizing room other with
  | nil => exact hroom
  | cons frame frames ih =>
    exact ih (handleFrame_withoutIds user now frame hroom)

/-- Two frames that hold events of one kind and one text have the same effect,
whatever else they claim: the same message is stored, the same event is
published, and the resulting rooms are equal with all their subscribers. In a
room with other fresh identifiers the results differ in identifiers only. The
same holds for any number of frames. -/
theorem claims_have_no_influence {user : Int} {now : Time} {room other : Room}
    {frame frame' : Bytes} {event event' : Event}
    (hframe : eventOf frame = .ok event) (hframe' : eventOf frame' = .ok event')
    (hwording : event.SameContent event')
    (hother : room.withoutIds = other.withoutIds) :
    (persist user now event room = persist user now event' room ∧
      handleFrame user now room frame = handleFrame user now room frame') ∧
    ((persist user now event room).1.map Event.withoutIds =
        (persist user now event' other).1.map Event.withoutIds ∧
      (persist user now event room).2.withoutIds =
        (persist user now event' other).2.withoutIds ∧
      (handleFrame user now room frame).withoutIds =
        (handleFrame user now other frame').withoutIds) ∧
    ∀ frames frames', List.Forall₂ SameEvents frames frames' →
      frames.foldl (handleFrame user now) room =
        frames'.foldl (handleFrame user now) room ∧
      (frames.foldl (handleFrame user now) room).withoutIds =
        (frames'.foldl (handleFrame user now) other).withoutIds := by
  have hsame : SameEvents frame frame' :=
    ⟨event, event', hframe, hframe', hwording⟩
  refine ⟨⟨persist_congr hwording user now room, handleFrame_congr hsame user
    now room⟩, ?_, ?_⟩
  · obtain ⟨hkept, hroom⟩ := persist_withoutIds user now event hother
    rw [persist_congr hwording user now other] at hkept hroom
    refine ⟨hkept, hroom, ?_⟩
    rw [handleFrame_congr hsame user now room]
    exact handleFrame_withoutIds user now frame' hother
  · intro frames frames' hframes
    refine ⟨handleFrames_congr hframes user now room, ?_⟩
    rw [handleFrames_congr hframes user now room]
    exact handleFrames_withoutIds frames' user now hother

/-- A frame with only a text. -/
def samplePlain : Bytes :=
  Utf8.ofString ("\x7b\"type\":\"NewMessageEvent\",\"payload\":" ++
    "\x7b\"message\":\"a\",\"message_kind\":2,\"sender_id\":7\x7d\x7d")

/-- A frame with the same text, another sender and old times. -/
def sampleForged : Bytes :=
  Utf8.ofString ("\x7b \"payload\":\x7b\"created_at\":5,\"sender_id\":9," ++
    "\"id\":\"x\",\"message_kind\":2,\"message\":\"a\",\"more\":[1]\x7d," ++
    "\n    \"type\":\"NewMessageEvent\",\"and\":null\x7d")

theorem sampleForged_has_no_influence :
    (eventOf samplePlain = .ok (.newMessage ⟨"", 7, .userText, "a", 0, 0⟩) ∧
      eventOf sampleForged = .ok (.newMessage ⟨"x", 9, .userText, "a", 5, 0⟩)) ∧
    handleFrame 7 0 {} samplePlain = handleFrame 7 0 {} sampleForged ∧
    (handleFrame 7 0 {} samplePlain).withoutIds =
      (handleFrame 7 0 { supply := { uuid := fun _ => .nil } }
        sampleForged).withoutIds := by
  have hplain : eventOf samplePlain =
      .ok (.newMessage ⟨"", 7, .userText, "a", 0, 0⟩) := by
    decide +kernel
  have hforged : eventOf sampleForged =
      .ok (.newMessage ⟨"x", 9, .userText, "a", 5, 0⟩) := by
    decide +kernel
  obtain ⟨⟨_, hsame⟩, ⟨_, _, hother⟩, _⟩ :=
    @claims_have_no_influence 7 0 {} { supply := { uuid := fun _ => .nil } }
      samplePlain sampleForged
      _ _ hplain hforged ⟨rfl, rfl⟩ rfl
  exact ⟨⟨hplain, hforged⟩, hsame, hother⟩

end Session

end ChatRelay
