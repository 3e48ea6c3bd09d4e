import ChatRelay.Proofs.Chat.EventWriting
import ChatRelay.Server.ConnectionTask
/-!
# Atomic steps of a connection task

The tasks of all connections are interleaved. The unit of interleaving is an
atomic step, which reads one frame, writes the response, subscribes to the bus,
writes one event, or ends the task. Tasks can be dropped between any two steps.
-/

namespace ChatRelay

/-- The atomic steps of a connection task. -/
inductive AtomicStep where
  /-- Read the request and call the router. -/
  | readRequest (now : Time)
  /-- Write the response of the handler. -/
  | respond
  /-- Write waiting bytes. -/
  | flush
  /-- Start the upgraded protocol. -/
  | beginUpgrade
  /-- Run the echo protocol. -/
  | echo
  /-- Read one frame of a session. -/
  | readFrame (now : Time)
  /-- Write one event. -/
  | writeEvent
  /-- The writer of a session is dropped. -/
  | dropWriter
  /-- The last write of a session has ended. -/
  | stop
  /-- The task of the connection is dropped. -/
  | cancel (now : Time)

/-- The services of a router do not change the bus. -/
def Room.Router.Quiet (router : Room.Router) : Prop :=
  ∀ now context request (room : Room),
    (room.call router now context request).2.bus = room.bus

def Phase.session? : Phase → Option Session
  | chatting session _ => some session
  | _ => none

namespace ConnectionTask

def session? (c : ConnectionTask) : Option Session := c.phase.session?

/-- Read one frame, or end the session at the end of the stream. -/
def readFrame (now : Time) (session : Session) (writing : Bool)
    (c : ConnectionTask) (room : Room) : ConnectionTask × Room :=
  match c.connection.read with
  | (.error e, connection) =>
    endReading now session writing e { c with connection } room
  | (_, connection) => ({ c with connection }, room)

/-- Perform a step, if the phase admits it. -/
def perform (router : Room.Router) (buffer : Nat) (step : AtomicStep)
    (c : ConnectionTask) (room : Room) : ConnectionTask × Room :=
  match step with
  | .readRequest now =>
    match c.phase with
    | .awaiting => readRequest now router c room
    | _ => (c, room)
  | .respond =>
    match c.phase with
    | .calling (some _) response records streaming =>
      respond response records streaming c room
    | _ => (c, room)
  | .flush =>
    match c.phase with
    | .answering .. | .stopping _ => flush c room
    | .chatting session true => writeQueued 0 session c room
    | _ => (c, room)
  | .beginUpgrade =>
    match c.phase with
    | .answering upgrade streaming =>
      if c.connection.isBlocked then (c, room)
      else beginUpgrade buffer upgrade streaming c room
    | _ => (c, room)
  | .echo =>
    match c.phase with
    | .echoing => (resumeEcho c, room)
    | _ => (c, room)
  | .readFrame now =>
    match c.phase with
    | .chatting session writing => readFrame now session writing c room
    | _ => (c, room)
  | .writeEvent =>
    match c.phase with
    | .chatting session true =>
      if c.connection.isBlocked then (c, room) else writeQueued 1 session c room
    | _ => (c, room)
  | .dropWriter =>
    match c.phase with
    | .chatting session true => dropWriter session c room
    | _ => (c, room)
  | .stop =>
    match c.phase with
    | .stopping _ => (c.stop, room)
    | _ => (c, room)
  | .cancel now =>
    match c.phase with
    | .chatting session writing => endSession now session writing c room
    | _ => (c.stop, room)

/-- The effect of a step on the session of the task and on the bus. -/
inductive Effect (buffer : Nat) (bus bus' : Bus Event) :
    Option Session → Option Session → Prop
  /-- The session and the bus are preserved. -/
  | unchanged {session? : Option Session} (hbus : bus' = bus) :
    Effect buffer bus bus' session? session?
  /-- The session modifies its own channel. -/
  | modified {session : Session} {f : Channel Event → Channel Event}
      (hbus : bus' = bus.modify session.subscription.channel f) :
      Effect buffer bus bus' (some session) (some session)
  /-- The session subscribes to the bus. -/
  | subscribed {session : Session}
      (hbus : bus.subscription? buffer = some (session.subscription, bus')) :
      Effect buffer bus bus' none (some session)
  /-- The session frees its slot, and may modify its channel. -/
  | unsubscribed {session : Session} {f : Channel Event → Channel Event}
      (hbus : bus' = (bus.unsubscribe session.subscription.slot).modify
        session.subscription.channel f) :
      Effect buffer bus bus' (some session) none

section

variable {router : Room.Router} {buffer : Nat} {now : Time} {session : Session}
    {writing : Bool}
  {upgrade : Option Upgrade} {streaming : Bool} {c : ConnectionTask}
    {room : Room}

theorem session?_of_phase {phase : Phase} (hphase : c.phase = phase) :
    c.session? = phase.session? :=
  congrArg Phase.session? hphase

theorem session?_chatting (hphase : c.phase = .chatting session writing) :
    c.session? = some session :=
  session?_of_phase hphase

theorem session?_none
    (hphase : ∀ session writing, c.phase ≠ .chatting session writing) :
    c.session? = none := by
  unfold session? Phase.session?
  split
  · next session writing hsession =>
      exact absurd hsession (hphase session writing)
  · rfl

theorem session?_stop (c : ConnectionTask) : c.stop.session? = none := rfl

theorem begin_bus {user : Int} {room' : Room}
    (h : Session.begin? user buffer room = some (session, room')) :
    room.bus.subscription? buffer = some (session.subscription, room'.bus) := by
  simp only [Session.begin?, Option.bind_eq_bind, Option.bind_eq_some_iff,
    Option.pure_def, Option.some.injEq, Prod.mk.injEq, Prod.exists] at h
  obtain ⟨subscription, bus, hbus, rfl, rfl⟩ := h
  exact hbus

theorem readRequest_effect (hquiet : router.Quiet)
    (hsession : c.session? = none) :
    Effect buffer room.bus (readRequest now router c room).2.bus none
      (readRequest now router c room).1.session? := by
  have hnone {c' : ConnectionTask} {room' : Room}
      (hsession : c'.session? = none)
      (hbus : room'.bus = room.bus) :
        Effect buffer room.bus room'.bus none c'.session? := by
    rw [hsession]
    exact .unchanged hbus
  unfold readRequest
  split
  · exact hnone hsession rfl
  · apply hnone (session?_stop _)
    split <;> rfl
  · next frame connection _ =>
    split
    · exact hnone rfl rfl
    · next request _ =>
      have hcall := hquiet now c.context request room
      simp only
      split <;>
        next hresult => exact hnone rfl (by simpa only [hresult] using hcall)

theorem beginUpgrade_effect :
    Effect buffer room.bus (beginUpgrade buffer upgrade streaming c room).2.bus
      none (beginUpgrade buffer upgrade streaming c room).1.session? := by
  unfold beginUpgrade
  split
  · exact .unchanged rfl
  · simp only
    split
    · exact .unchanged rfl
    · split
      · exact .unchanged rfl
      · split
        · exact .unchanged rfl
        · next session room' hbegin => exact .subscribed (begin_bus hbegin)

theorem dropWriter_effect (session : Session) (c : ConnectionTask)
    (room : Room) :
    Effect buffer room.bus (dropWriter session c room).2.bus (some session)
      (dropWriter session c room).1.session? :=
  .modified rfl

theorem endSession_effect (now : Time) (session : Session) (writing : Bool)
    (c : ConnectionTask) (room : Room) :
    Effect buffer room.bus (endSession now session writing c room).2.bus
      (some session) (endSession now session writing c room).1.session? := by
  unfold endSession
  simp only
  split
  · exact .unsubscribed (Bus.modify_id _ _).symm
  · exact .unsubscribed rfl

theorem readFrame_effect (hphase : c.phase = .chatting session writing) :
    Effect buffer room.bus (readFrame now session writing c room).2.bus
      (some session) (readFrame now session writing c room).1.session? := by
  unfold readFrame
  split
  · exact endSession_effect now session writing _
      (room.record [Session.endRecord _])
  · next incoming connection _ _ =>
    have hsession : { c with connection }.session? = some session :=
      session?_chatting hphase
    rw [hsession]
    exact .unchanged rfl

theorem writeQueued_nothing (n : Nat)
    (hclear : c.connection.writer.waiting = [])
    (hwaiting : session.waiting room = []) : writeQueued n session c room =
    (c, room) := by
  rw [writeQueued, Session.write_nothing n hclear hwaiting]

theorem writeQueued_effect (n : Nat)
    (hphase : c.phase = .chatting session true) :
    Effect buffer room.bus (writeQueued n session c room).2.bus (some session)
      (writeQueued n session c room).1.session? := by
  obtain ⟨f, hroom⟩ := Session.write_room n session c.connection room
  unfold writeQueued
  generalize session.write n c.connection room = written at hroom
  obtain ⟨outgoing, connection, room'⟩ := written
  obtain rfl : room' = _ := hroom
  have hsession : { c with connection }.session? = some session :=
    session?_chatting hphase
  cases outgoing with
  | written =>
      rw [hsession]
      exact .modified rfl
  | blocked =>
      rw [hsession]
      exact .modified rfl
  | error e => exact .modified (Bus.modify_modify _ _ _ _)

theorem flush_effect (hsession : c.session? = none) :
    Effect buffer room.bus (flush c room).2.bus none
      (flush c room).1.session? := by
  unfold flush
  split
  · exact .unchanged rfl
  · next outgoing connection _ _ =>
    have hnone : { c with connection }.session? = none := hsession
    rw [hnone]
    exact .unchanged rfl

/-- The effect of every atomic step on the bus is determined by its effect on
the session of the task. -/
theorem perform_effect (hquiet : router.Quiet) (buffer : Nat)
    (step : AtomicStep) (c : ConnectionTask) (room : Room) :
    Effect buffer room.bus (perform router buffer step c room).2.bus c.session?
      (perform router buffer step c room).1.session? := by
  have hidle : Effect buffer room.bus room.bus c.session? c.session? :=
    .unchanged rfl
  cases step with
  | readRequest now =>
      simp only [perform]
      split
      · next hphase =>
        have hsession : c.session? = none := session?_of_phase hphase
        rw [hsession]
        exact readRequest_effect hquiet hsession
      · exact hidle
  | respond =>
      simp only [perform]
      split
      · next hphase =>
        have hsession : c.session? = none := session?_of_phase hphase
        rw [hsession, respond]
        split <;> exact .unchanged rfl
      · exact hidle
  | flush =>
      simp only [perform]
      split
      · next hphase =>
        have hsession : c.session? = none := session?_of_phase hphase
        rw [hsession]
        exact flush_effect hsession
      · next hphase =>
        have hsession : c.session? = none := session?_of_phase hphase
        rw [hsession]
        exact flush_effect hsession
      · next hphase =>
        rw [session?_chatting hphase]
        exact writeQueued_effect 0 hphase
      · exact hidle
  | beginUpgrade =>
      simp only [perform]
      split
      · next hphase =>
        split
        · exact hidle
        · have hsession : c.session? = none := session?_of_phase hphase
          rw [hsession]
          exact beginUpgrade_effect
      · exact hidle
  | echo =>
      simp only [perform]
      split
      · next hphase =>
        have hsession : c.session? = none := session?_of_phase hphase
        have hecho : c.resumeEcho.session? = none := by
          unfold resumeEcho
          split
          · simp only
            split
            · exact hsession
            · rfl
          · exact hsession
          · rfl
        rw [hsession, hecho]
        exact .unchanged rfl
      · exact hidle
  | readFrame now =>
      simp only [perform]
      split
      · next hphase =>
        rw [session?_chatting hphase]
        exact readFrame_effect hphase
      · exact hidle
  | writeEvent =>
      simp only [perform]
      split
      · next hphase =>
        split
        · exact hidle
        · rw [session?_chatting hphase]
          exact writeQueued_effect 1 hphase
      · exact hidle
  | dropWriter =>
      simp only [perform]
      split
      · next hphase =>
        rw [session?_chatting hphase]
        exact dropWriter_effect _ c room
      · exact hidle
  | stop =>
      simp only [perform]
      split
      · next hphase =>
        have hsession : c.session? = none := session?_of_phase hphase
        rw [hsession]
        exact .unchanged rfl
      · exact hidle
  | cancel now =>
      simp only [perform]
      split
      · next hphase =>
        rw [session?_chatting hphase]
        exact endSession_effect now _ _ c room
      · next hphase =>
        rw [session?_none hphase]
        exact .unchanged rfl

end

end ConnectionTask

end ChatRelay
