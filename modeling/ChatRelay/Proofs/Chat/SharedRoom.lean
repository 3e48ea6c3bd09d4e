import Mathlib.Data.List.Forall2
import Mathlib.Logic.Relation
import ChatRelay.Proofs.Chat.EventSteps
import ChatRelay.Server.ConnectionTask
/-!
# Sessions that share a room

Any number of sessions act on one room. A session reads one frame after another.
It stores the message of a frame that decodes and publishes the event in a step
of its own, and the steps of all sessions interleave in any order.
-/

namespace ChatRelay

structure SessionTrace where
  session : Session
  frames : List Bytes := []
  pending : Option Event := none
  /-- The room before and after each step of the session. -/
  steps : List (Room × Room) := []

/-- The messages that some steps appended to the store. -/
def storedBy (steps : List (Room × Room)) : List Message :=
  steps.flatMap fun step =>
    step.2.store.messages.drop step.1.store.messages.length

/-- The events that some steps put into channels. -/
def sentBy (steps : List (Room × Room)) : List Event :=
  steps.flatMap fun step => step.1.bus.added step.2.bus

namespace SessionTrace

/-- Read a frame, and store its message if it holds an event. -/
def read (s : SessionTrace) (now : Time) (frame : Bytes) (room : Room) :
    SessionTrace × Room :=
  let (pending, room') : Option Event × Room :=
    match Session.eventOf frame with
    | .ok event => Session.persist s.session.user now event room
    | .error e => (none, room.record [.rejected e.message])
  ({ s with
     frames := s.frames ++ [frame]
     pending
     steps := s.steps ++ [(room, room')] }, room')

/-- Publish the event of the stored message. -/
def publish (s : SessionTrace) (room : Room) : SessionTrace × Room :=
  let room' := Session.publish s.pending room
  ({ s with pending := none, steps := s.steps ++ [(room, room')] }, room')

end SessionTrace

structure SharedRoom where
  room : Room
  sessions : List SessionTrace := []

namespace SharedRoom

/-- What else may change a room: it removes no message, and messages can still
be stored. -/
structure Outside (room room' : Room) : Prop where
  messages : ∀ m ∈ room.store.messages, m ∈ room'.store.messages
  fault : room'.fault = room.fault

/-- A step of one session, or of anything else that uses the room. -/
inductive Step : SharedRoom → SharedRoom → Prop
  | join {shared : SharedRoom} {user : Int} {buffer : Nat} {session : Session}
      {room : Room}
      (h : Session.begin? user buffer shared.room = some (session, room)) :
      Step shared ⟨room, shared.sessions ++ [{ session := session }]⟩
  | read {shared : SharedRoom} {i : Nat} {s : SessionTrace}
      (hs : shared.sessions[i]? = some s) (hidle : s.pending = none)
      (now : Time) (frame : Bytes) :
      Step shared ⟨(s.read now frame shared.room).2,
        shared.sessions.set i (s.read now frame shared.room).1⟩
  | publish {shared : SharedRoom} {i : Nat} {s : SessionTrace}
      (hs : shared.sessions[i]? = some s) (hpending : s.pending.isSome) :
      Step shared ⟨(s.publish shared.room).2,
        shared.sessions.set i (s.publish shared.room).1⟩
  | outside {shared : SharedRoom} {room : Room} (h : Outside shared.room room) :
      Step shared ⟨room, shared.sessions⟩

abbrev Steps : SharedRoom → SharedRoom → Prop := Relation.ReflTransGen Step

end SharedRoom

/-- The events in frames, without the frames that hold none. -/
def decoded (frames : List Bytes) : List Event :=
  frames.filterMap fun frame => (Session.eventOf frame).toOption

theorem decoded_append (frames more : List Bytes) :
    decoded (frames ++ more) = decoded frames ++ decoded more :=
  List.filterMap_append

theorem decoded_ok {frame : Bytes} {event : Event}
    (h : Session.eventOf frame = .ok event) :
    decoded [frame] = [event] := by
  simp [decoded, h, Except.toOption]

theorem decoded_error {frame : Bytes} {e : EventError}
    (h : Session.eventOf frame = .error e) :
    decoded [frame] = [] := by
  simp [decoded, h, Except.toOption]

/-- The message that is stored for a client's event. -/
structure StoredFor (user : Int) (event : Event) (m : Message) : Prop where
  sender : m.sender = user
  kind : m.kind = event.message.kind
  text : m.text = event.message.text

/-- The steps in which a user's session handles frames. A frame that does not
decode changes neither the store nor the bus. Of a frame that holds an event the
message is stored in one step, and its event is published in the next one or
still pending. The list of events is the list of those that were published, in
the order of publishing. -/
inductive Handles (user : Int) :
    List Bytes → List (Room × Room) → List Event → Option Event → Prop
  | start : Handles user [] [] [] none
  | rejected {frames : List Bytes} {steps : List (Room × Room)}
      {published : List Event}
      (h : Handles user frames steps published none) {frame : Bytes}
      {e : EventError} (hframe : Session.eventOf frame = .error e)
      {before after : Room} (hstore : after.store = before.store)
      (hbus : after.bus = before.bus) :
      Handles user (frames ++ [frame]) (steps ++ [(before, after)])
        published none
  | stored {frames : List Bytes} {steps : List (Room × Room)}
      {published : List Event}
      (h : Handles user frames steps published none) {frame : Bytes}
      {event stored : Event} (hframe : Session.eventOf frame = .ok event)
      {now : Time} {before after : Room}
      (hpersists : Session.Persists user now event before stored after) :
      Handles user (frames ++ [frame]) (steps ++ [(before, after)]) published
        (some stored)
  | published {frames : List Bytes} {steps : List (Room × Room)}
      {published : List Event}
      {stored : Event} (h : Handles user frames steps published (some stored))
      {before after : Room}
      (hpublishes : Session.Publishes stored before after) :
      Handles user frames (steps ++ [(before, after)])
        (published ++ [stored]) none

theorem storedBy_concat (steps : List (Room × Room)) (before after : Room) :
    storedBy (steps ++ [(before, after)]) = storedBy steps ++
      after.store.messages.drop before.store.messages.length := by
  simp [storedBy]

theorem sentBy_concat (steps : List (Room × Room)) (before after : Room) :
    sentBy (steps ++ [(before, after)]) =
      sentBy steps ++ before.bus.added after.bus := by
  simp [sentBy]

theorem storedBy_same (steps : List (Room × Room)) {before after : Room}
    (hstore : after.store = before.store) :
    storedBy (steps ++ [(before, after)]) = storedBy steps := by
  rw [storedBy_concat, hstore, List.drop_length, List.append_nil]

theorem sentBy_same (steps : List (Room × Room)) {before after : Room}
    (hbus : after.bus = before.bus) :
    sentBy (steps ++ [(before, after)]) = sentBy steps := by
  rw [sentBy_concat, hbus, Bus.added_self, List.append_nil]

theorem Session.Persists.storedBy {user : Int} {now : Time}
    {event stored : Event} {before after : Room}
    (h : Session.Persists user now event before stored after)
    (steps : List (Room × Room)) :
    ChatRelay.storedBy (steps ++ [(before, after)]) =
      ChatRelay.storedBy steps ++ [stored.message] := by
  rw [storedBy_concat, h.store, List.drop_left]

namespace Handles

variable {user : Int} {frames : List Bytes} {steps : List (Room × Room)}
  {published : List Event} {pending : Option Event}

/-- The stored messages are those of the published events and of the pending
one. -/
theorem stored_eq (h : Handles user frames steps published pending) :
    (published ++ pending.toList).map Event.message = storedBy steps := by
  induction h with
  | start => rfl
  | rejected _ _ hstore _ ih => rw [storedBy_same _ hstore, ih]
  | stored _ _ hpersists ih =>
      rw [Option.toList_none, List.append_nil] at ih
      rw [hpersists.storedBy, ← ih, Option.toList_some, List.map_append]
      rfl
  | published _ hpublishes ih =>
      rw [storedBy_same _ hpublishes.store, ← ih, Option.toList_none,
        List.append_nil, Option.toList_some]

theorem stored_for (h : Handles user frames steps published pending) :
    List.Forall₂ (StoredFor user) (decoded frames) (storedBy steps) := by
  induction h with
  | start => exact .nil
  | rejected _ hframe hstore _ ih =>
      rw [storedBy_same _ hstore, decoded_append, decoded_error hframe,
        List.append_nil]
      exact ih
  | stored _ hframe hpersists ih =>
      rw [hpersists.storedBy, decoded_append, decoded_ok hframe]
      exact List.rel_append ih
        (.cons ⟨hpersists.sender, hpersists.kind, hpersists.text⟩ .nil)
  | published _ hpublishes ih =>
      rw [storedBy_same _ hpublishes.store]
      exact ih

/-- Only published events are put into channels. -/
theorem sent_published (h : Handles user frames steps published pending) :
    ∀ event ∈ sentBy steps, event ∈ published := by
  induction h with
  | start => simp [sentBy]
  | rejected _ _ _ hbus ih => rwa [sentBy_same _ hbus]
  | stored _ _ hpersists ih => rwa [sentBy_same _ hpersists.bus]
  | published _ hpublishes ih =>
      intro event hevent
      rw [sentBy_concat] at hevent
      rcases List.mem_append.mp hevent with hold | hnew
      · exact List.mem_append_left _ (ih event hold)
      · obtain ⟨rfl, -⟩ := hpublishes.bus.mem_added.mp hnew
        exact List.mem_append_right _ (List.mem_singleton_self _)

theorem sender_eq (h : Handles user frames steps published pending) :
    ∀ m ∈ storedBy steps, m.sender = user := by
  induction h with
  | start => simp [storedBy]
  | rejected _ _ hstore _ ih => rwa [storedBy_same _ hstore]
  | stored _ _ hpersists ih =>
      intro m hm
      rw [hpersists.storedBy] at hm
      rcases List.mem_append.mp hm with hold | hnew
      · exact ih m hold
      · obtain rfl := List.mem_singleton.mp hnew
        exact hpersists.sender
  | published _ hpublishes ih => rwa [storedBy_same _ hpublishes.store]

end Handles

/-- The invariant of one session: it has handled its frames in order, and what
it stored is in the store. -/
structure SessionTrace.InOrder (s : SessionTrace) (room : Room) : Prop where
  handles : ∃ published,
    Handles s.session.user s.frames s.steps published s.pending
  stays : ∀ m ∈ storedBy s.steps, m ∈ room.store.messages

namespace SessionTrace

variable {s : SessionTrace} {room : Room}

theorem InOrder.mono {room' : Room} (h : s.InOrder room)
    (hroom : ∀ m ∈ room.store.messages, m ∈ room'.store.messages) :
    s.InOrder room' :=
  ⟨h.handles, fun m hm => hroom m (h.stays m hm)⟩

theorem read_error {frame : Bytes} {e : EventError}
    (h : Session.eventOf frame = .error e) (hidle : s.pending = none)
    (now : Time) :
    let room' := room.record [.rejected e.message]
    s.read now frame room =
      ({ s with
          frames := s.frames ++ [frame], steps := s.steps ++ [(room, room')] },
        room') := by
  simp only [read, h, hidle]

theorem read_ok {frame : Bytes} {event : Event}
    (h : Session.eventOf frame = .ok event) (hfault : room.fault = none)
    (now : Time) :
    ∃ stored room', Session.Persists s.session.user now event room
      stored room' ∧
      s.read now frame room =
        ({ s with
           frames := s.frames ++ [frame]
           pending := some stored
           steps := s.steps ++ [(room, room')] }, room') := by
  obtain ⟨stored, hstored, hpersists⟩ :=
    Session.persists hfault s.session.user now event
  refine ⟨stored, _, hpersists, ?_⟩
  simp only [read, h, hstored]

theorem publish_some {event : Event} (hpending : s.pending = some event)
    (room : Room) :
    ∃ room', Session.Publishes event room room' ∧
      s.publish room =
        ({ s with pending := none, steps := s.steps ++ [(room, room')] },
          room') := by
  refine ⟨_, Session.publishes event room, ?_⟩
  simp only [publish, hpending]

theorem read_room (hfault : room.fault = none) (now : Time) (frame : Bytes) :
    (s.read now frame room).2.fault = none ∧
      ∀ m ∈ room.store.messages,
        m ∈ (s.read now frame room).2.store.messages := by
  cases h : Session.eventOf frame with
  | ok event =>
      obtain ⟨stored, room', hpersists, heq⟩ := s.read_ok h hfault now
      rw [heq]
      refine ⟨hpersists.fault.trans hfault, fun m hm => ?_⟩
      rw [hpersists.store]
      exact List.mem_append_left _ hm
  | error e =>
      simp only [read, h]
      exact ⟨hfault, fun m hm => hm⟩

theorem InOrder.read (h : s.InOrder room) (hidle : s.pending = none)
    (hfault : room.fault = none) (now : Time) (frame : Bytes) :
    (s.read now frame room).1.InOrder (s.read now frame room).2 := by
  obtain ⟨published, hhandles⟩ := h.handles
  rw [hidle] at hhandles
  cases hevent : Session.eventOf frame with
  | ok event =>
      obtain ⟨stored, room', hpersists, heq⟩ := s.read_ok hevent hfault now
      rw [heq]
      refine ⟨⟨published, hhandles.stored hevent hpersists⟩, fun m hm => ?_⟩
      rw [hpersists.storedBy] at hm
      rw [hpersists.store]
      rcases List.mem_append.mp hm with hold | hnew
      · exact List.mem_append_left _ (h.stays m hold)
      · exact List.mem_append_right _ hnew
  | error e =>
      rw [s.read_error hevent hidle now]
      refine ⟨⟨published, ?_⟩, fun m hm => ?_⟩
      · rw [hidle]
        exact hhandles.rejected hevent rfl rfl
      · have hstore : (room.record [.rejected e.message]).store = room.store :=
          rfl
        have hold := h.stays m
        rw [← storedBy_same s.steps hstore] at hold
        exact hold hm

theorem InOrder.publish (h : s.InOrder room) {event : Event}
    (hpending : s.pending = some event) :
    (s.publish room).1.InOrder (s.publish room).2 := by
  obtain ⟨published, hhandles⟩ := h.handles
  rw [hpending] at hhandles
  obtain ⟨room', hpublishes, heq⟩ := s.publish_some hpending room
  rw [heq]
  refine ⟨⟨_, hhandles.published hpublishes⟩, fun m hm => ?_⟩
  rw [storedBy_same _ hpublishes.store] at hm
  rw [hpublishes.store]
  exact h.stays m hm

end SessionTrace

namespace SharedRoom

/-- The invariant of a run: messages can be stored, and every session is in
order. -/
structure InOrder (shared : SharedRoom) : Prop where
  fault : shared.room.fault = none
  sessions : ∀ s ∈ shared.sessions, s.InOrder shared.room

variable {shared shared' : SharedRoom}

theorem InOrder.set {i : Nat} {s : SessionTrace} {room : Room}
    (h : shared.InOrder)
    (hroom : ∀ m ∈ shared.room.store.messages, m ∈ room.store.messages)
    (hfault : room.fault = none) (hs : s.InOrder room) :
    InOrder ⟨room, shared.sessions.set i s⟩ := by
  refine ⟨hfault, fun t ht => ?_⟩
  rcases List.mem_or_eq_of_mem_set ht with hold | rfl
  · exact (h.sessions t hold).mono hroom
  · exact hs

theorem begin_room {user : Int} {buffer : Nat} {room room' : Room}
    {session : Session}
    (h : Session.begin? user buffer room = some (session, room')) :
    session.user = user ∧ room'.store = room.store ∧
    room'.fault = room.fault := by
  simp only [Session.begin?, Option.bind_eq_bind, Option.bind_eq_some_iff,
    Option.pure_def, Option.some.injEq, Prod.mk.injEq, Prod.exists] at h
  obtain ⟨subscription, bus, -, rfl, rfl⟩ := h
  exact ⟨rfl, rfl, rfl⟩

theorem Step.inOrder (hstep : Step shared shared') (h : shared.InOrder) :
    shared'.InOrder := by
  cases hstep with
  | join hbegin =>
      obtain ⟨-, hstore, hfault⟩ := begin_room hbegin
      refine ⟨hfault.trans h.fault, fun s hs => ?_⟩
      rcases List.mem_append.mp hs with hold | hnew
      · exact (h.sessions s hold).mono fun m hm => by rwa [hstore]
      · obtain rfl := List.mem_singleton.mp hnew
        exact ⟨⟨[], .start⟩, by simp [storedBy]⟩
  | read hs hidle now frame =>
      obtain ⟨hfault, hmessages⟩ := SessionTrace.read_room h.fault now frame
      exact h.set hmessages hfault
        ((h.sessions _ (List.mem_of_getElem? hs)).read hidle h.fault now frame)
  | @publish i s hs hpending =>
      obtain ⟨event, hevent⟩ := Option.isSome_iff_exists.mp hpending
      obtain ⟨room', hpublishes, heq⟩ := s.publish_some hevent shared.room
      have hnext := (h.sessions s (List.mem_of_getElem? hs)).publish hevent
      rw [heq] at hnext ⊢
      exact h.set (fun m hm => by rwa [hpublishes.store])
        (hpublishes.fault.trans h.fault) hnext
  | outside houtside =>
      exact ⟨houtside.fault.trans h.fault,
        fun s hs => (h.sessions s hs).mono houtside.messages⟩

theorem Steps.inOrder (hsteps : Steps shared shared') (h : shared.InOrder) :
    shared'.InOrder := by
  induction hsteps with
  | refl => exact h
  | tail _ hstep ih => exact hstep.inOrder ih

theorem Steps.ofRoom {room : Room} (hfault : room.fault = none)
    (hsteps : Steps ⟨room, []⟩ shared) : shared.InOrder :=
  hsteps.inOrder ⟨hfault, by simp⟩

/-- Handling a frame is a step that reads it and, if it holds an event, a step
that publishes. -/
theorem handleFrame_eq (s : SessionTrace) (room : Room) (now : Time)
    (frame : Bytes) :
    Session.handleFrame s.session.user now room frame =
      Session.publish (s.read now frame room).1.pending
        (s.read now frame room).2 := by
  unfold Session.handleFrame SessionTrace.read
  cases Session.eventOf frame with
  | ok event => rfl
  | error e => rfl

theorem handleFrame_steps {i : Nat} {s : SessionTrace}
    (hs : shared.sessions[i]? = some s) (hidle : s.pending = none) (now : Time)
    (frame : Bytes) :
    ∃ s', Steps shared
        ⟨Session.handleFrame s.session.user now shared.room frame,
          shared.sessions.set i s'⟩ ∧
      s'.session = s.session ∧ s'.pending = none ∧
      s'.frames = s.frames ++ [frame] := by
  have hread := Step.read hs hidle now frame
  have hlength := (List.getElem?_eq_some_iff.mp hs).1
  rw [handleFrame_eq s shared.room now frame]
  -- there is no second step where nothing is pending
  cases hpending : (s.read now frame shared.room).1.pending with
  | none =>
    exact ⟨(s.read now frame shared.room).1, .single hread, rfl, hpending, rfl⟩
  | some event =>
      have hpublish := @Step.publish ⟨(s.read now frame shared.room).2,
        shared.sessions.set i (s.read now frame shared.room).1⟩ i _
        (List.getElem?_set_self hlength) (by rw [hpending]; rfl)
      refine ⟨((s.read now frame shared.room).1.publish
        (s.read now frame shared.room).2).1, ?_, rfl, rfl, rfl⟩
      have hsteps := (Relation.ReflTransGen.single hread).tail hpublish
      simpa only [List.set_set, SessionTrace.publish, hpending] using hsteps

/-- A run at whose end one of the sessions has handled these frames as well. -/
def HandlesAll (shared : SharedRoom) (i : Nat) (s : SessionTrace)
    (frames : List Bytes) (room : Room) : Prop :=
  ∃ s', Steps shared ⟨room, shared.sessions.set i s'⟩ ∧
    s'.session = s.session ∧ s'.pending = none ∧ s'.frames = s.frames ++ frames

theorem handlesAll_foldl (now : Time) (frames : List Bytes) {i : Nat}
    {s : SessionTrace} (hs : shared.sessions[i]? = some s)
    (hidle : s.pending = none) :
    HandlesAll shared i s frames
      (frames.foldl (Session.handleFrame s.session.user now) shared.room) := by
  induction frames generalizing shared s with
  | nil =>
      obtain ⟨hi, hsi⟩ := List.getElem?_eq_some_iff.mp hs
      refine ⟨s, ?_, rfl, hidle, (List.append_nil _).symm⟩
      rw [List.foldl_nil, ← hsi, List.set_getElem_self]
  | cons frame frames ih =>
      obtain ⟨s₁, hfirst, hsession₁, hidle₁, hframes₁⟩ :=
        handleFrame_steps hs hidle now frame
      have hlength := (List.getElem?_eq_some_iff.mp hs).1
      obtain ⟨s₂, hmore, hsession₂, hidle₂, hframes₂⟩ :=
        @ih ⟨_, _⟩ s₁ (List.getElem?_set_self hlength) hidle₁
      rw [hsession₁, List.set_set] at hmore
      refine ⟨s₂, hfirst.trans hmore, hsession₂.trans hsession₁, hidle₂, ?_⟩
      rw [hframes₂, hframes₁, List.append_assoc, List.singleton_append]

/-- A session handles all frames that can be read, whatever they hold, and goes
on. -/
theorem readFrames_handlesAll {i : Nat} {s : SessionTrace}
    (hs : shared.sessions[i]? = some s) (hidle : s.pending = none) (now : Time)
    (writing : Bool) {c : ConnectionTask} {frames : List Bytes}
    {connection : Connection}
    (hread : c.connection.readAll = (frames, none, connection)) :
    ∃ room, ConnectionTask.readFrames now s.session writing c shared.room =
        ({ c with connection }, room) ∧
      HandlesAll shared i s frames room := by
  refine ⟨_, ?_, handlesAll_foldl now frames hs hidle⟩
  simp only [ConnectionTask.readFrames, hread]

/-- In every run of any number of sessions, whose steps interleave in any order,
an event that a session put into a channel has its message in the store, sent by
the session's user. The messages that a session stored are those of the frames
that hold an event, one each and in order, and its steps publish the events of
exactly these messages in this order, each to all channels that are open and
have room. One event may still be pending, and then its message is in the store
and the next step of the session publishes it. A frame that does not decode
changes neither the store nor the bus, and a session goes on with all frames
that can be read, those behind the handshake included. -/
theorem stored_before_published {room : Room} (hfault : room.fault = none)
    (hrun : Steps ⟨room, []⟩ shared) :
    (∀ s ∈ shared.sessions,
      (∀ event ∈ sentBy s.steps, event.message ∈ shared.room.store.messages ∧
        event.message.sender = s.session.user) ∧
      (∃ published, Handles s.session.user s.frames s.steps
        published s.pending ∧
        List.Forall₂ (StoredFor s.session.user) (decoded s.frames)
          (storedBy s.steps) ∧
        (published ++ s.pending.toList).map Event.message = storedBy s.steps) ∧
      (∀ event, s.pending = some event →
        event.message ∈ shared.room.store.messages ∧
        Session.Publishes event shared.room (s.publish shared.room).2) ∧
      ∀ now frame error, Session.eventOf frame = .error error →
        s.pending = none →
        (s.read now frame shared.room).1.pending = none ∧
        (s.read now frame shared.room).2.store = shared.room.store ∧
        (s.read now frame shared.room).2.bus = shared.room.bus) ∧
    (∀ i s now router buffer writing frames connection (c : ConnectionTask),
      shared.sessions[i]? = some s → s.pending = none →
      c.phase = .chatting s.session writing →
      c.connection.readAll = (frames, none, connection) →
      ∃ room, c.resume now router buffer shared.room =
        ({ c with connection }, room) ∧
        HandlesAll shared i s frames room) ∧
    ∀ user now buffer frames connection session begun (c : ConnectionTask),
      Session.begin? user buffer shared.room = some (session, begun) →
      c.connection.hold.readAll = (frames, none, connection) →
      session.user = user ∧
      ∃ room, c.runUpgrade now buffer (some (.chat user)) true shared.room =
          ({ c with connection, phase := .chatting session true }, room) ∧
        HandlesAll ⟨begun, shared.sessions ++ [{ session := session }]⟩
          shared.sessions.length { session := session } frames room := by
  have horder := Steps.ofRoom hfault hrun
  refine ⟨fun s hs => ?_, ?_, ?_⟩
  · have h := horder.sessions s hs
    obtain ⟨published, hhandles⟩ := h.handles
    have hstored := hhandles.stored_eq
    refine ⟨fun event hevent => ?_,
      ⟨published, hhandles, hhandles.stored_for, hstored⟩,
        fun event hpending => ?_, fun now frame error herror hidle => ?_⟩
    · have hmessage : event.message ∈ storedBy s.steps := by
        rw [← hstored, List.map_append]
        exact List.mem_append_left _
          (List.mem_map_of_mem (hhandles.sent_published event hevent))
      exact ⟨h.stays _ hmessage, hhandles.sender_eq _ hmessage⟩
    · have hmessage : event.message ∈ storedBy s.steps := by
        rw [← hstored, hpending]
        exact List.mem_map_of_mem
          (List.mem_append_right _ (List.mem_singleton_self _))
      obtain ⟨room', hpublishes, heq⟩ := s.publish_some hpending shared.room
      rw [heq]
      exact ⟨h.stays _ hmessage, hpublishes⟩
    · rw [s.read_error herror hidle now]
      exact ⟨hidle, rfl, rfl⟩
  · intro i s now router buffer writing frames connection c hs hidle
      hphase hread
    obtain ⟨connection', phase, context⟩ := c
    obtain rfl : phase = .chatting s.session writing := hphase
    exact readFrames_handlesAll hs hidle now writing hread
  · intro user now buffer frames connection session begun c hbegin hread
    refine ⟨(begin_room hbegin).1, ?_⟩
    rw [ConnectionTask.runUpgrade_chat hbegin]
    exact @readFrames_handlesAll ⟨begun, _⟩ _ { session := session }
      List.getElem?_concat_length
      rfl now true
      { c with
        connection := c.connection.hold, phase := .chatting session true }
      _ _ hread

/-- A step that a scheduler may choose. -/
inductive Move where
  | join (user : Int) (buffer : Nat)
  | read (i : Nat) (now : Time) (frame : Bytes)
  | publish (i : Nat)

/-- Take a step if it is possible. -/
def play (shared : SharedRoom) : Move → SharedRoom
  | .join user buffer =>
    match Session.begin? user buffer shared.room with
    | some (session, room) =>
      ⟨room, shared.sessions ++ [{ session := session }]⟩
    | none => shared
  | .read i now frame =>
    match shared.sessions[i]? with
    | some s =>
      if s.pending.isNone then
        ⟨(s.read now frame shared.room).2,
          shared.sessions.set i (s.read now frame shared.room).1⟩
      else shared
    | none => shared
  | .publish i =>
    match shared.sessions[i]? with
    | some s =>
      if s.pending.isSome then
        ⟨(s.publish shared.room).2,
          shared.sessions.set i (s.publish shared.room).1⟩
      else shared
    | none => shared

theorem play_steps (shared : SharedRoom) (move : Move) :
    Steps shared (shared.play move) := by
  cases move with
  | join user buffer =>
      simp only [play]
      split
      · next session room hbegin => exact .single (.join hbegin)
      · exact .refl
  | read i now frame =>
      simp only [play]
      split
      · next s hs =>
          split
          · next hidle =>
              exact .single
                (.read hs (Option.isNone_iff_eq_none.mp hidle) now frame)
          · exact .refl
      · exact .refl
  | publish i =>
      simp only [play]
      split
      · next s hs =>
          split
          · next hpending => exact .single (.publish hs hpending)
          · exact .refl
      · exact .refl

/-- Every schedule is a run. -/
theorem schedule_steps (shared : SharedRoom) (moves : List Move) :
    Steps shared (moves.foldl play shared) := by
  induction moves generalizing shared with
  | nil => exact .refl
  | cons move moves ih =>
    exact (play_steps shared move).trans (ih (shared.play move))

/-- Two sessions store their messages before either publishes, and one of them
reads a line that is no event in between. -/
def sampleMoves : List Move :=
  let said (text : String) :=
    Event.bytes (.newMessage ⟨"", 0, .userText, text, 0, 0⟩)
  [.join 7 4, .join 8 4, .read 0 10 (said "a"), .read 1 20 [0x3F],
    .read 1 30 (said "b"), .publish 1, .publish 0]

theorem sampleMoves_stored_before_published :
    let shared := sampleMoves.foldl play ⟨{}, []⟩
    (shared.sessions.map fun s =>
        (s.frames.length, (storedBy s.steps).map Message.createdAt,
          (sentBy s.steps).length)) =
      [(1, [10], 2), (2, [30], 2)] ∧
    ∀ s ∈ shared.sessions, ∀ event ∈ sentBy s.steps,
      event.message ∈ shared.room.store.messages ∧
      event.message.sender = s.session.user := by
  refine ⟨by decide +kernel, fun s hs => ?_⟩
  exact ((stored_before_published rfl (schedule_steps ⟨{}, []⟩ sampleMoves)).1 s
    hs).1

end SharedRoom

end ChatRelay
