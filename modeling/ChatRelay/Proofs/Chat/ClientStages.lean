import ChatRelay.Proofs.Chat.Handshake
import ChatRelay.Proofs.Chat.EventSteps
import ChatRelay.Proofs.Frame.Feed
/-!
# Stages of a client

The handshake is answered first. If the answer is the welcome, a session may
begin, and the frames its channel accepted are written behind the welcome or
still wait in the channel. Once the writer is dropped or the session has ended,
only the first of them were sent.
-/

namespace ChatRelay

namespace Session

variable {buffer : Nat} {session : Session} {room room' : Room} {event : Event}
  {queue : List Event}

theorem waiting_congr
    (h : room'.bus.channels[session.subscription.channel]? =
      room.bus.channels[session.subscription.channel]?) :
    session.waiting room' = session.waiting room := by
  rw [waiting, h, waiting]

/-- A session that has just begun has no waiting events. -/
theorem waiting_begin {user : Int} (hsound : room.bus.Sound)
    (h : begin? user buffer room = some (session, room')) :
    session.waiting room' = [] := by
  obtain ⟨-, -, channel, hchannel, -, hqueue⟩ :=
    Bus.subscription?_channel hsound.placed (ConnectionTask.begin_bus h)
  rw [waiting, hchannel, Option.elim_some, hqueue]

/-- The channel of a session either takes a published event or does not. -/
theorem waiting_publish (hsound : room.bus.Sound) (session : Session)
    (event : Event) :
    session.waiting (room.publish event).2 = session.waiting room ∨
      session.waiting (room.publish event).2 =
        session.waiting room ++ [event] := by
  have hbus := (room.publishing event).bus
  split at hbus
  · unfold waiting
    rw [hbus, hsound.publish_channel]
    cases room.bus.channels[session.subscription.channel]? with
    | none => exact .inl rfl
    | some channel =>
        rw [Option.map_some]
        split
        · exact channel.send_queue event
        · exact .inl rfl
  · rw [waiting, hbus, waiting]
    exact .inl rfl

end Session

namespace SlotsHeld

variable {buffer : Nat} {bus bus' : Bus Event}
    {sessions : List (Option Session)}
  {before after : Option Session} {i j : Nat} {s : Session}

/-- A step of one connection changes no other session's channel. -/
theorem channel_of_other (h : SlotsHeld bus sessions)
    (hi : sessions[i]? = some before) (hj : sessions[j]? = some (some s))
    (hne : i ≠ j)
    (heffect : ConnectionTask.Effect buffer bus bus' before after) :
    bus'.channels[s.subscription.channel]? =
      bus.channels[s.subscription.channel]? := by
  have hapart {t : Session} (hi : sessions[i]? = some (some t)) :
      t.subscription.channel ≠ s.subscription.channel :=
    fun heq => hne (h.channel_apart hi hj heq)
  cases heffect with
  | unchanged hbus => rw [hbus]
  | modified hbus =>
      rw [hbus]
      exact List.getElem?_modify_ne _ _ (hapart hi)
  | subscribed hbus =>
      obtain ⟨-, rfl⟩ := Bus.subscription?_eq_some hbus
      have hplace := h.sound.placed_at (h.holds s (List.mem_of_getElem? hj))
      exact List.getElem?_append_left hplace
  | unsubscribed hbus =>
      rw [hbus]
      exact List.getElem?_modify_ne _ _ (hapart hi)

end SlotsHeld

namespace Client

structure NoSession (g : Client) : Prop where
  since : g.since = none
  left : g.left = none
  accepted : g.accepted = []

def HandshakeAccepted (g : Client) : Prop :=
  ∃ attempt user, g.request = some attempt ∧ attempt.Accepted user

/-- A session is offered behind this answer only if it is the welcome. -/
def UpgradesToWelcome (g : Client) (upgrade : Option Upgrade)
    (answer : Bytes) : Prop :=
  ∀ offered, upgrade = some offered →
    answer = Chat.welcome ∧ (∃ user, offered = .chat user) ∧ g.HandshakeAccepted

/-- The frames of numbered events. -/
def frames (events : List (Event × Nat)) : List Bytes :=
  events.map fun e => e.1.bytes

theorem frames_append (events more : List (Event × Nat)) :
    frames (events ++ more) = frames events ++ frames more := List.map_append

/-- The welcome was sent, followed only by events that the channel accepted. -/
structure SessionOutput (g : Client) : Prop where
  invited : g.HandshakeAccepted
  begun : g.since.isSome
  welcome : Frame.lines [Chat.welcome] <+: g.delivered
  output : g.output <+: Frame.lines (Chat.welcome :: frames g.accepted)

inductive Stage (room : Room) (g : Client) : Prop
  | awaiting (hphase : g.task.phase = .awaiting) (hfresh : g.NoSession)
      (hnothing : g.output = [])
  | calling {due : Option Time} {response : Response} {records : List Record}
      {streaming : Bool}
      (hphase : g.task.phase = .calling due response records streaming)
      (hfresh : g.NoSession) (hnothing : g.output = [])
      (hexpects : g.UpgradesToWelcome response.upgrade response.bytes)
  | answering {upgrade : Option Upgrade} {streaming : Bool} {answer : Response}
      (hphase : g.task.phase = .answering upgrade streaming)
      (hfresh : g.NoSession) (hline : g.output = Frame.lines [answer.bytes])
      (hexpects : g.UpgradesToWelcome upgrade answer.bytes)
  /-- No session began, and none will. -/
  | refused (hphase : g.task.phase = .ended) (hfresh : g.NoSession)
      {answer : Response} (hpart : g.output <+: Frame.lines [answer.bytes])
  | writing {session : Session} {written waiting : List (Event × Nat)}
      (hphase : g.task.phase = .chatting session true) (hleft : g.left = none)
      (haccepted : g.accepted = written ++ waiting)
      (hwaiting : session.waiting room = waiting.map Prod.fst)
      (hout : g.SessionOutput)
      (houtput : g.output = Frame.lines (Chat.welcome :: frames written))
  | writerDropped {session : Session}
      (hphase : g.task.phase = .chatting session false)
      (hleft : g.left = none) (hout : g.SessionOutput)
  /-- The session has ended. -/
  | closed
      (hphase : g.task.phase = .ended ∨ ∃ due, g.task.phase = .stopping due)
      (hleft : g.left.isSome) (hout : g.SessionOutput)

end Client

namespace ConnectionTask

variable {router : Room.Router} {now : Time} {buffer : Nat} {session : Session}
    {writing : Bool}
  {c : ConnectionTask} {room : Room}

/-- A request is read and called, or not yet read, or the connection ends. -/
theorem perform_readRequest (hrouter : Chat.ChatRouter router)
    (hphase : c.phase = .awaiting) :
    let after := (c.perform router buffer (.readRequest now) room).1
    (after.phase = .awaiting ∧ c.connection.Emits [] after.connection) ∨
    (after.phase = .ended ∧ c.connection.Truncates [] after.connection) ∨
    ∃ due response records streaming,
      after.phase = .calling due response records streaming ∧
      c.connection.Emits [] after.connection ∧
      ∀ offered, response.upgrade = some offered →
        response.bytes = Chat.welcome ∧
        (∃ user, offered = .chat user) ∧
        ∃ attempt user, c.request? (.readRequest now) room = some attempt ∧
          attempt.Accepted user := by
  have hread := c.connection.read_emits
  simp only [perform, hphase, readRequest]
  split
  · next connection hresult =>
    rw [hresult] at hread
    exact .inl ⟨rfl, hread⟩
  · next e connection hresult =>
    rw [hresult] at hread
    exact .inr (.inl ⟨rfl, hread.close⟩)
  next frame connection hresult =>
  rw [hresult] at hread
  split
  · exact .inr (.inr ⟨_, _, _, _, rfl, hread,
      fun _ h => absurd h.symm (Option.some_ne_none _)⟩)
  next request hdecode =>
  have hoffers := hrouter.offers now c.context request room
  split
  · next delay response records room' hcall =>
    refine .inr (.inr ⟨_, _, _, _, rfl, hread, fun offered hoffered => ?_⟩)
    rw [hcall] at hoffers
    obtain ⟨hwelcome, user, huser, haccepted⟩ :=
      hoffers _ _ _ rfl offered hoffered
    refine ⟨hwelcome, ⟨user, huser⟩, _, user, ?_, haccepted⟩
    simp [request?, hphase, hresult, hdecode, Except.toOption]
  · exact .inr (.inr ⟨_, _, _, _, rfl, hread,
      fun _ h => absurd h.symm (Option.some_ne_none _)⟩)
  · exact .inr (.inl ⟨rfl, hread.close⟩)
  · exact .inr (.inl ⟨rfl, hread.close⟩)

/-- The response is written, or the connection ends. -/
theorem perform_respond {due : Time} {response : Response}
    {records : List Record} {streaming : Bool}
    (hphase : c.phase = .calling (some due) response records streaming) :
    let after := (c.perform router buffer .respond room).1
    (after.phase = .answering response.upgrade streaming ∧
      c.connection.Emits (Frame.lines [response.bytes]) after.connection) ∨
    (after.phase = .ended ∧ c.connection.Truncates
      (Frame.lines [response.bytes]) after.connection) := by
  have hwrite := c.connection.write_result response.bytes
  rw [← Frame.lines_singleton] at hwrite
  simp only [perform, hphase, respond, Connection.writeResponse]
  generalize c.connection.write response.bytes = written at hwrite
  obtain ⟨outgoing, connection⟩ := written
  cases outgoing with
  | written => exact .inl ⟨rfl, hwrite⟩
  | blocked => exact .inl ⟨rfl, hwrite⟩
  | error e => exact .inr ⟨rfl, Connection.Fails.close hwrite⟩

/-- Waiting bytes are written, or writing fails. -/
theorem perform_flush (router : Room.Router) (buffer : Nat) (c : ConnectionTask)
    (room : Room) :
    (∃ connection, c.perform router buffer .flush room =
      ({ c with connection }, room) ∧
      c.connection.Emits [] connection) ∨
    c.connection.Truncates []
      (c.perform router buffer .flush room).1.connection ∧
      match c.phase with
      | .chatting session _ =>
        (c.perform router buffer .flush room).1.phase = .chatting session false
      | _ => (c.perform router buffer .flush room).1.phase = .ended := by
  have hflush := c.connection.flush_result
  simp only [perform]
  split
  case h_4 => exact .inl ⟨c.connection, rfl, c.connection.emits_nil⟩
  all_goals
    next hphase =>
    simp only [flush, writeQueued, Session.write_zero]
    generalize c.connection.flush = flushed at hflush
    obtain ⟨outgoing, connection⟩ := flushed
    cases outgoing with
    | written => exact .inl ⟨connection, rfl, hflush⟩
    | blocked => exact .inl ⟨connection, rfl, hflush⟩
    | error e =>
        simp only [hphase]
        exact .inr ⟨Connection.Fails.close hflush, rfl⟩

/-- A session returns its slot, and its last write may still be going on. -/
theorem endSession_cases (now : Time) (session : Session) (writing : Bool)
    (c : ConnectionTask) (room : Room) :
    let after := (c.endSession now session writing room).1
    (after.phase = .ended ∨ ∃ due, after.phase = .stopping due) ∧
      c.connection.Truncates [] after.connection := by
  have hsame := c.connection.emits_nil
  unfold endSession
  simp only
  split
  · exact ⟨.inr ⟨_, rfl⟩, hsame.truncates⟩
  · exact ⟨.inl rfl, hsame.close⟩

theorem perform_cancel (hphase : c.phase = .chatting session writing) :
    let after := (c.perform router buffer (.cancel now) room).1
    (after.phase = .ended ∨ ∃ due, after.phase = .stopping due) ∧
      c.connection.Truncates [] after.connection := by
  simp only [perform, hphase]
  exact endSession_cases now session writing c room

/-- A session continues after a frame of its client, or ends. -/
theorem perform_readFrame (hphase : c.phase = .chatting session writing) :
    (∃ connection, c.perform router buffer (.readFrame now) room =
      ({ c with connection }, room) ∧
      c.connection.Emits [] connection ∧ c.ends (.readFrame now) = false) ∨
    let after := (c.perform router buffer (.readFrame now) room).1
    (after.phase = .ended ∨ ∃ due, after.phase = .stopping due) ∧
      c.connection.Truncates [] after.connection ∧
      c.ends (.readFrame now) = true := by
  have hread := c.connection.read_emits
  simp only [perform, hphase, readFrame, ends]
  generalize c.connection.read = result at hread
  obtain ⟨incoming, connection⟩ := result
  cases incoming with
  | frame frame => exact .inl ⟨connection, by rw [← hphase], hread, rfl⟩
  | pending => exact .inl ⟨connection, by rw [← hphase], hread, rfl⟩
  | error e =>
      obtain ⟨hover, htruncates⟩ :=
        endSession_cases now session writing { c with connection }
          (room.record [Session.endRecord e])
      have hpart : _ <+: connection.output ++ [] := htruncates.output
      rw [List.append_nil, hread.output] at hpart
      exact .inr ⟨hover, ⟨hread.sent.trans htruncates.sent, hpart⟩, rfl⟩

/-- An event is taken from the channel and written, or the writer is dropped. -/
theorem perform_writeEvent {event : Event} {queue : List Event}
    (hphase : c.phase = .chatting session true)
    (hblocked : c.connection.isBlocked = false)
    (hwaiting : session.waiting room = event :: queue) :
    let after := c.perform router buffer .writeEvent room
    (after.1.phase = .chatting session true ∧ session.waiting after.2 = queue ∧
      c.connection.Emits (Frame.lines [event.bytes]) after.1.connection) ∨
    (after.1.phase = .chatting session false ∧
      c.connection.Truncates (Frame.lines [event.bytes])
        after.1.connection) := by
  have hwrite := c.connection.write_result event.bytes
  rw [← Frame.lines_singleton] at hwrite
  have hclear := Connection.isBlocked_eq_false_iff.mp hblocked
  simp only [perform, hphase, hblocked, Bool.false_eq_true, if_false,
    writeQueued, Session.write_one hclear hwaiting]
  generalize c.connection.write event.bytes = written at hwrite
  obtain ⟨outgoing, connection⟩ := written
  cases outgoing with
  | written => exact .inl ⟨rfl, Session.waiting_take hwaiting, hwrite⟩
  | blocked => exact .inl ⟨rfl, Session.waiting_take hwaiting, hwrite⟩
  | error e => exact .inr ⟨rfl, Connection.Fails.close hwrite⟩

end ConnectionTask

namespace Client

variable {router : Room.Router} {buffer count : Nat} {step : AtomicStep}
    {g g' : Client}
  {room room' : Room} {text : Bytes}

theorem session?_of_phase {phase : Phase} (hphase : g.task.phase = phase)
    (hnone : phase.session? = none) : g.session? = none :=
  (ConnectionTask.session?_of_phase hphase).trans hnone

theorem session?_of_chatting {session : Session} {writing : Bool}
    (hphase : g.task.phase = .chatting session writing) :
    g.session? = some session :=
  ConnectionTask.session?_chatting hphase

theorem output_perform (h : g.task.connection.Emits text
    (g.task.perform router buffer step room).1.connection) :
    (g.perform router buffer step room count).output = g.output ++ text := by
  change g.taken ++
    (g.task.perform router buffer step room).1.connection.output = _
  rw [h.output, Client.output, List.append_assoc]

theorem output_perform_truncates (h : g.task.connection.Truncates text
    (g.task.perform router buffer step room).1.connection) :
    (g.perform router buffer step room count).output <+: g.output ++ text := by
  change g.taken ++ _ <+: _
  rw [Client.output, List.append_assoc]
  exact (List.prefix_append_right_inj g.taken).mpr h.output

theorem delivered_perform (h : g.task.connection.Truncates text
    (g.task.perform router buffer step room).1.connection) :
    g.delivered <+: (g.perform router buffer step room count).delivered :=
  (List.prefix_append_right_inj g.taken).mpr h.sent

/-- A step that is not the next one of the connection's task does nothing. -/
theorem perform_idle
    (hstep : g.task.perform router buffer step room = (g.task, room))
    (hnorequest : g.task.request? step room = none)
    (hends : g.session? = none ∨ g.task.ends step = false) :
    g.perform router buffer step room count = g := by
  have hleft : (g.session?.isSome && g.task.ends step) = false := by
    rcases hends with hnone | hgoes
    · rw [hnone, Option.isSome_none, Bool.false_and]
    · rw [hgoes, Bool.and_false]
  have hsince : (g.session?.isNone && g.task.session?.isSome) = false := by
    change (g.session?.isNone && g.session?.isSome) = false
    cases g.session? <;> rfl
  simp only [Client.perform, hstep, hnorequest, hleft, hsince, Option.none_or,
    Bool.false_eq_true, if_false]

theorem Stage.idle (h : g.Stage room)
    (hstep : g.task.perform router buffer step room = (g.task, room))
    (hnorequest : g.task.request? step room = none)
    (hends : g.session? = none ∨ g.task.ends step = false) :
    (g.perform router buffer step room count).Stage
      (g.task.perform router buffer step room).2 := by
  rw [perform_idle hstep hnorequest hends, hstep]
  exact h

/-- Where no session begins, none has begun. -/
theorem NoSession.perform (h : g.NoSession) (hbefore : g.session? = none)
    (hafter : (g.perform router buffer step room count).session? = none) :
    (g.perform router buffer step room count).NoSession := by
  have hnone : (g.task.perform router buffer step room).1.session? = none :=
    hafter
  refine ⟨?_, ?_, h.accepted⟩
  · simp [Client.perform, hbefore, hnone, h.since]
  · simp [Client.perform, hbefore, h.left]

/-- A step that reads no request keeps the request record. -/
theorem HandshakeAccepted.perform (h : g.HandshakeAccepted)
    (hnorequest : g.task.request? step room = none) :
    (g.perform router buffer step room count).HandshakeAccepted := by
  obtain ⟨attempt, user, hrequest, haccepted⟩ := h
  refine ⟨attempt, user, ?_, haccepted⟩
  simp [Client.perform, hnorequest, hrequest]

theorem request?_of_phase (hphase : g.task.phase ≠ .awaiting)
    (step : AtomicStep) (room : Room) :
    g.task.request? step room = none := by
  unfold ConnectionTask.request?
  split
  · next hawaiting _ => exact absurd hawaiting hphase
  · rfl

/-- The connection ends without a session. -/
theorem NoSession.refused (h : g.NoSession) (hbefore : g.session? = none)
    (hphase : (g.perform router buffer step room count).task.phase = .ended)
    (htruncates : g.task.connection.Truncates text
      (g.perform router buffer step room count).task.connection)
    {answer : Response}
    (hpart : g.output ++ text <+: Frame.lines [answer.bytes]) :
    (g.perform router buffer step room count).Stage room' :=
  .refused hphase (h.perform hbefore (session?_of_phase hphase rfl))
    ((output_perform_truncates htruncates).trans hpart)

theorem perform_stop
    (hstep : (g.task.perform router buffer step room).1 = g.task.stop) :
    (g.perform router buffer step room count).task.phase = .ended ∧
      g.task.connection.Truncates []
        (g.perform router buffer step room count).task.connection := by
  have htask : (g.perform router buffer step room count).task =
      g.task.stop := hstep
  rw [htask]
  exact ⟨rfl, g.task.connection.emits_nil.close⟩

theorem perform_cancel {now : Time} (hnone : g.session? = none) :
    g.task.perform router buffer (.cancel now) room = (g.task.stop, room) := by
  simp only [ConnectionTask.perform]
  split
  · next session writing hphase =>
    exact absurd ((session?_of_chatting hphase).symm.trans hnone)
      (Option.some_ne_none session)
  · rfl

/-- A connection without a session is cancelled. -/
theorem NoSession.cancel {now : Time} (h : g.NoSession)
    (hnone : g.session? = none) {answer : Response}
    (hpart : g.output <+: Frame.lines [answer.bytes]) :
    (g.perform router buffer (.cancel now) room count).Stage room' := by
  obtain ⟨hphase, htruncates⟩ :=
    @perform_stop router buffer count (.cancel now) g room
      (by rw [perform_cancel hnone])
  apply h.refused hnone hphase htruncates
  rwa [List.append_nil]

theorem SessionOutput.perform (h : g.SessionOutput)
    (hnorequest : g.task.request? step room = none)
    (htruncates : g.task.connection.Truncates text
      (g.perform router buffer step room count).task.connection)
    (hpart : g.output ++ text <+:
      Frame.lines (Chat.welcome :: frames g.accepted)) :
    (g.perform router buffer step room count).SessionOutput := by
  refine ⟨h.invited.perform hnorequest, ?_,
    h.welcome.trans (delivered_perform htruncates),
      (output_perform_truncates htruncates).trans hpart⟩
  simp only [Client.perform]
  split
  · rfl
  · exact h.begun

/-- No further bytes are written. -/
theorem SessionOutput.pass (h : g.SessionOutput)
    (hnorequest : g.task.request? step room = none)
    (htruncates : g.task.connection.Truncates []
      (g.perform router buffer step room count).task.connection) :
    (g.perform router buffer step room count).SessionOutput := by
  apply h.perform hnorequest htruncates
  rw [List.append_nil]
  exact h.output

theorem left_perform (hgoes : g.task.ends step = false) :
    (g.perform router buffer step room count).left = g.left := by
  simp [Client.perform, hgoes]

theorem SessionOutput.closed {session : Session} (h : g.SessionOutput)
    (hsession : g.session? = some session) (hends : g.task.ends step = true)
    (hnorequest : g.task.request? step room = none)
    (hphase : (g.perform router buffer step room count).task.phase = .ended ∨
      ∃ due, (g.perform router buffer step room count).task.phase =
        .stopping due)
    (htruncates : g.task.connection.Truncates []
      (g.perform router buffer step room count).task.connection) :
    (g.perform router buffer step room count).Stage room' := by
  refine .closed hphase ?_ (h.pass hnorequest htruncates)
  simp [Client.perform, hsession, hends]

/-- Only the connection's own task changes, and it writes nothing. -/
theorem perform_passes {connection : Connection}
    (hstep : g.task.perform router buffer step room =
      ({ g.task with connection }, room))
    (hemits : g.task.connection.Emits [] connection) :
    (g.perform router buffer step room count).task.phase = g.task.phase ∧
      g.task.connection.Emits []
        (g.perform router buffer step room count).task.connection := by
  have htask : (g.perform router buffer step room count).task =
      { g.task with connection } := congrArg Prod.fst hstep
  rw [htask]
  exact ⟨rfl, hemits⟩

theorem Stage.perform_awaiting (hrouter : Chat.ChatRouter router)
    (hphase : g.task.phase = .awaiting) (hfresh : g.NoSession)
    (hnothing : g.output = []) :
    (g.perform router buffer step room count).Stage
      (g.task.perform router buffer step room).2 := by
  have hsession : g.session? = none := session?_of_phase hphase rfl
  have hpart : g.output ++ [] <+: Frame.lines [(default : Response).bytes] := by
    rw [hnothing]
    exact List.nil_prefix
  cases step with
  | readRequest now =>
      rcases @ConnectionTask.perform_readRequest router now buffer g.task room
          hrouter hphase with
        ⟨hstill, hemits⟩ | ⟨hended, htruncates⟩ |
        ⟨due, response, records, streaming, hcalling, hemits, hoffers⟩
      · refine .awaiting hstill
          (hfresh.perform hsession (session?_of_phase hstill rfl)) ?_
        rw [output_perform hemits, hnothing, List.nil_append]
      · exact hfresh.refused hsession hended htruncates hpart
      · refine .calling hcalling
          (hfresh.perform hsession (session?_of_phase hcalling rfl)) ?_ ?_
        · rw [output_perform hemits, hnothing, List.nil_append]
        · intro offered hoffered
          obtain ⟨hwelcome, hchat, attempt, user, hrequest, haccepted⟩ :=
            hoffers offered hoffered
          refine ⟨hwelcome, hchat, attempt, user, ?_, haccepted⟩
          simp only [Client.perform, hrequest, Option.some_or]
  | cancel now =>
    exact hfresh.cancel hsession (List.append_nil g.output ▸ hpart)
  | _ =>
      apply (Stage.awaiting hphase hfresh hnothing).idle
      · simp only [ConnectionTask.perform, hphase]
      · rfl
      · exact .inl hsession

theorem Stage.perform_calling {due : Option Time} {response : Response}
    {records : List Record} {streaming : Bool}
    (hphase : g.task.phase = .calling due response records streaming)
    (hfresh : g.NoSession) (hnothing : g.output = [])
    (hexpects : g.UpgradesToWelcome response.upgrade response.bytes) :
    (g.perform router buffer step room count).Stage
      (g.task.perform router buffer step room).2 := by
  have hsession : g.session? = none := session?_of_phase hphase rfl
  have hnorequest : ∀ step, g.task.request? step room = none :=
    fun step => request?_of_phase (by simp [hphase]) step room
  have hstage : g.Stage room := .calling hphase hfresh hnothing hexpects
  cases step with
  | respond =>
      cases due with
      | none =>
          apply hstage.idle
          · simp only [ConnectionTask.perform, hphase]
          · exact hnorequest _
          · exact .inl hsession
      | some due =>
          rcases @ConnectionTask.perform_respond router buffer g.task room _ _ _
              _ hphase with
            ⟨hanswering, hemits⟩ | ⟨hended, htruncates⟩
          · refine @Stage.answering _ _ _ _ response hanswering
              (hfresh.perform hsession (session?_of_phase hanswering rfl)) ?_ ?_
            · rw [output_perform hemits, hnothing, List.nil_append]
            · intro offered hoffered
              obtain ⟨hwelcome, hchat, hinvited⟩ := hexpects offered hoffered
              exact ⟨hwelcome, hchat, hinvited.perform (hnorequest _)⟩
          · have hpart : g.output ++ Frame.lines [response.bytes] <+:
                Frame.lines [response.bytes] := by
              simp only [hnothing, List.nil_append, List.prefix_refl]
            exact hfresh.refused hsession hended htruncates hpart
  | cancel now =>
      apply @NoSession.cancel _ _ _ _ _ _ _ hfresh hsession response
      rw [hnothing]
      exact List.nil_prefix
  | _ =>
      apply hstage.idle
      · simp only [ConnectionTask.perform, hphase]
      · exact hnorequest _
      · exact .inl hsession

/-- A session begins behind the welcome. -/
theorem NoSession.begin {user : Int} {session : Session} (h : g.NoSession)
    (hinvited : g.HandshakeAccepted) (hnone : g.session? = none)
    (hsound : room.bus.Sound)
    (hbegin : Session.begin? user buffer room = some (session, room'))
    (hstep : g.task.perform router buffer .beginUpgrade room =
      ({ g.task with
          connection := g.task.connection.hold
          phase := .chatting session true }, room'))
    (hdelivered : g.delivered = Frame.lines [Chat.welcome])
    (houtput : g.output = Frame.lines [Chat.welcome]) :
    (g.perform router buffer .beginUpgrade room count).Stage room' := by
  have hnorequest : g.task.request? .beginUpgrade room = none := rfl
  have htask : (g.perform router buffer .beginUpgrade room count).task =
      { g.task with
          connection := g.task.connection.hold
          phase := .chatting session true } := congrArg Prod.fst hstep
  have hemits : g.task.connection.Emits []
      (g.perform router buffer .beginUpgrade room count).task.connection := by
    rw [htask]
    exact g.task.connection.hold_emits
  have hwelcome : (g.perform router buffer .beginUpgrade room count).output =
      Frame.lines [Chat.welcome] := by
    rw [output_perform hemits, List.append_nil, houtput]
  refine @Stage.writing _ _ session [] [] ?_ ?_ h.accepted
    (Session.waiting_begin hsound hbegin)
    ⟨hinvited.perform hnorequest, ?_, ?_, ?_⟩ hwelcome
  · rw [htask]
  · rw [left_perform rfl, h.left]
  · simp [Client.perform, hnone, hstep, ConnectionTask.session?, Phase.session?]
  · rw [← hdelivered]
    exact delivered_perform hemits.truncates
  · rw [hwelcome]
    exact List.prefix_append _ _

theorem Stage.perform_beginUpgrade (hsound : room.bus.Sound)
    {upgrade : Option Upgrade} {streaming : Bool} {answer : Response}
    (hphase : g.task.phase = .answering upgrade streaming)
    (hfresh : g.NoSession) (hline : g.output = Frame.lines [answer.bytes])
    (hexpects : g.UpgradesToWelcome upgrade answer.bytes)
    (hblocked : g.task.connection.isBlocked = false) :
    (g.perform router buffer .beginUpgrade room count).Stage
      (g.task.perform router buffer .beginUpgrade room).2 := by
  have hsession : g.session? = none := session?_of_phase hphase rfl
  have hnorequest : g.task.request? .beginUpgrade room = none :=
    request?_of_phase (by simp [hphase]) _ room
  have hstep : g.task.perform router buffer .beginUpgrade room =
      g.task.beginUpgrade buffer upgrade streaming room := by
    simp only [ConnectionTask.perform, hphase, hblocked,
      Bool.false_eq_true, if_false]
  have htask : (g.perform router buffer .beginUpgrade room count).task =
      (g.task.beginUpgrade buffer upgrade streaming room).1 :=
    congrArg Prod.fst hstep
  -- the whole response was written
  have hdelivered : g.delivered = Frame.lines [answer.bytes] := by
    have hwaiting := Connection.isBlocked_eq_false_iff.mp hblocked
    rw [← hline, Client.delivered, Client.output, Connection.output, hwaiting,
      List.append_nil]
  have hpart : g.output ++ [] <+: Frame.lines [answer.bytes] := by
    simp only [List.append_nil, hline, List.prefix_refl]
  have hstop {c : ConnectionTask}
      (hemits : g.task.connection.Emits [] c.connection)
      (hc : (g.task.beginUpgrade buffer upgrade streaming room).1 = c.stop) :
      (g.perform router buffer .beginUpgrade room count).Stage
        (g.task.perform router buffer .beginUpgrade room).2 := by
    rw [hc] at htask
    refine hfresh.refused hsession ?_ ?_ hpart
    · rw [htask]
      rfl
    · rw [htask]
      exact hemits.close
  cases upgrade with
  | none => exact hstop g.task.connection.emits_nil rfl
  | some offered =>
      obtain ⟨hwelcome, ⟨user, rfl⟩, hinvited⟩ := hexpects offered rfl
      let held := { g.task with connection := g.task.connection.hold }
      have hhold : g.task.connection.Emits [] held.connection :=
        g.task.connection.hold_emits
      cases streaming with
      | false =>
          exact @hstop held hhold rfl
      | true =>
          cases hbegin : Session.begin? user buffer room with
          | none =>
              apply @hstop held hhold
              simp [ConnectionTask.beginUpgrade, hbegin, held]
          | some begun =>
              obtain ⟨session, room'⟩ := begun
              have henter :
                  g.task.beginUpgrade buffer (some (.chat user)) true room =
                  ({ g.task with
                      connection := g.task.connection.hold
                      phase := .chatting session true }, room') := by
                simp [ConnectionTask.beginUpgrade, hbegin]
              rw [henter] at hstep
              rw [hwelcome] at hdelivered hline
              rw [hstep]
              exact hfresh.begin hinvited hsession hsound hbegin hstep
                hdelivered hline

theorem Stage.perform_answering (hsound : room.bus.Sound)
    {upgrade : Option Upgrade} {streaming : Bool} {answer : Response}
    (hphase : g.task.phase = .answering upgrade streaming)
    (hfresh : g.NoSession) (hline : g.output = Frame.lines [answer.bytes])
    (hexpects : g.UpgradesToWelcome upgrade answer.bytes) :
    (g.perform router buffer step room count).Stage
      (g.task.perform router buffer step room).2 := by
  have hsession : g.session? = none := session?_of_phase hphase rfl
  have hnorequest : ∀ step, g.task.request? step room = none :=
    fun step => request?_of_phase (by simp [hphase]) step room
  have hstage : g.Stage room := .answering hphase hfresh hline hexpects
  cases step with
  | flush =>
      rcases g.task.perform_flush router buffer room with
        ⟨connection, hstep, hemits⟩ | ⟨htruncates, hended⟩
      · obtain ⟨hsame, hpass⟩ := @perform_passes _ _ count _ _ _ _ hstep hemits
        have hanswering := hsame.trans hphase
        refine @Stage.answering _ _ _ _ answer hanswering
          (hfresh.perform hsession (session?_of_phase hanswering rfl)) ?_
            fun offered hoffered => ?_
        · rw [output_perform hpass, hline, List.append_nil]
        · obtain ⟨hwelcome, hchat, hinvited⟩ := hexpects offered hoffered
          exact ⟨hwelcome, hchat, hinvited.perform (hnorequest _)⟩
      · rw [hphase] at hended
        have hpart : g.output ++ [] <+: Frame.lines [answer.bytes] := by
          simp only [List.append_nil, hline, List.prefix_refl]
        exact hfresh.refused hsession hended htruncates hpart
  | beginUpgrade =>
      cases hblocked : g.task.connection.isBlocked with
      | false =>
        exact Stage.perform_beginUpgrade hsound hphase hfresh hline
          hexpects hblocked
      | true =>
          apply hstage.idle
          · simp only [ConnectionTask.perform, hphase, hblocked, if_true]
          · exact hnorequest _
          · exact .inl hsession
  | cancel now =>
      apply @NoSession.cancel _ _ _ _ _ _ _ hfresh hsession answer
      simp only [hline, List.prefix_refl]
  | _ =>
      apply hstage.idle
      · simp only [ConnectionTask.perform, hphase]
      · exact hnorequest _
      · exact .inl hsession

theorem Stage.perform_refused (hphase : g.task.phase = .ended)
    (hfresh : g.NoSession) {answer : Response}
    (hpart : g.output <+: Frame.lines [answer.bytes]) :
    (g.perform router buffer step room count).Stage
      (g.task.perform router buffer step room).2 := by
  have hsession : g.session? = none := session?_of_phase hphase rfl
  cases step with
  | cancel now => exact hfresh.cancel hsession hpart
  | _ =>
      apply (Stage.refused hphase hfresh hpart).idle
      · simp only [ConnectionTask.perform, hphase]
      · exact request?_of_phase (by simp [hphase]) _ room
      · exact .inl hsession

/-- The writer of a session is dropped. -/
theorem SessionOutput.writerDropped {session : Session} (h : g.SessionOutput)
    (hleft : g.left = none) (hnorequest : g.task.request? step room = none)
    (hgoes : g.task.ends step = false)
    (hphase : (g.perform router buffer step room count).task.phase =
      .chatting session false)
    (htruncates : g.task.connection.Truncates text
      (g.perform router buffer step room count).task.connection)
    (hpart : g.output ++ text <+:
      Frame.lines (Chat.welcome :: frames g.accepted)) :
    (g.perform router buffer step room count).Stage room' :=
  .writerDropped hphase ((left_perform hgoes).trans hleft)
    (h.perform hnorequest htruncates hpart)

theorem Stage.perform_writing {session : Session}
    {written waiting : List (Event × Nat)}
    (hphase : g.task.phase = .chatting session true) (hleft : g.left = none)
    (haccepted : g.accepted = written ++ waiting)
    (hwaiting : session.waiting room = waiting.map Prod.fst)
    (hout : g.SessionOutput)
    (houtput : g.output = Frame.lines (Chat.welcome :: frames written)) :
    (g.perform router buffer step room count).Stage
      (g.task.perform router buffer step room).2 := by
  have hsession : g.session? = some session := session?_of_chatting hphase
  have hnorequest : ∀ step, g.task.request? step room = none :=
    fun step => request?_of_phase (by simp [hphase]) step room
  have hstage : g.Stage room :=
    .writing hphase hleft haccepted hwaiting hout houtput
  have hnothing :
      g.output ++ [] <+: Frame.lines (Chat.welcome :: frames g.accepted) := by
    rw [List.append_nil]
    exact hout.output
  -- the connection writes nothing, and the room is unchanged
  have hpass {step : AtomicStep} {connection : Connection}
      (hstep : g.task.perform router buffer step room =
        ({ g.task with connection }, room))
      (hemits : g.task.connection.Emits [] connection)
      (hgoes : g.task.ends step = false) :
      (g.perform router buffer step room count).Stage
        (g.task.perform router buffer step room).2 := by
    obtain ⟨hsame, hnone⟩ := @perform_passes _ _ count _ _ _ _ hstep hemits
    rw [hstep]
    refine .writing (hsame.trans hphase) ((left_perform hgoes).trans hleft)
      haccepted hwaiting (hout.pass (hnorequest _) hnone.truncates) ?_
    rw [output_perform hnone, List.append_nil, houtput]
  cases step with
  | flush =>
      rcases g.task.perform_flush router buffer room with
        ⟨connection, hstep, hemits⟩ | ⟨htruncates, hmuted⟩
      · exact hpass hstep hemits rfl
      · rw [hphase] at hmuted
        exact hout.writerDropped hleft (hnorequest _) rfl hmuted
          htruncates hnothing
  | readFrame now =>
      rcases @ConnectionTask.perform_readFrame router now buffer _ _ _
          room hphase with
        ⟨connection, hstep, hemits, hgoes⟩ | ⟨hover, htruncates, hends⟩
      · exact hpass hstep hemits hgoes
      · exact hout.closed hsession hends (hnorequest _) hover htruncates
  | writeEvent =>
      cases hblocked : g.task.connection.isBlocked with
      | true =>
          apply hstage.idle
          · simp only [ConnectionTask.perform, hphase, hblocked, if_true]
          · exact hnorequest _
          · exact .inr rfl
      | false =>
          cases waiting with
          | nil =>
              apply hstage.idle
              · have hclear := Connection.isBlocked_eq_false_iff.mp hblocked
                simp only [ConnectionTask.perform, hphase, hblocked,
                  Bool.false_eq_true, if_false]
                exact ConnectionTask.writeQueued_nothing 1 hclear hwaiting
              · exact hnorequest _
              · exact .inr rfl
          | cons e waiting =>
              have hall : g.accepted = (written ++ [e]) ++ waiting := by
                rw [haccepted, List.append_assoc, List.singleton_append]
              have hmore : g.output ++ Frame.lines [e.1.bytes] =
                  Frame.lines (Chat.welcome :: frames (written ++ [e])) := by
                rw [houtput, ← Frame.lines_append, frames_append]
                rfl
              have hpart : g.output ++ Frame.lines [e.1.bytes] <+:
                  Frame.lines (Chat.welcome :: frames g.accepted) := by
                rw [hmore, hall, frames_append (written ++ [e]),
                  ← List.cons_append, Frame.lines_append]
                exact List.prefix_append _ _
              rcases @ConnectionTask.perform_writeEvent router buffer _ _ room _
                  _ hphase hblocked hwaiting with
                ⟨hwriting, hqueue, hemits⟩ | ⟨hmuted, htruncates⟩
              · refine .writing hwriting
                  ((left_perform rfl).trans hleft) hall hqueue
                  (hout.perform (hnorequest _) hemits.truncates hpart) ?_
                rw [output_perform hemits, hmore]
              · exact hout.writerDropped hleft (hnorequest _) rfl hmuted
                  htruncates hpart
  | dropWriter =>
      have hstep : (g.perform router buffer .dropWriter room count).task =
          (g.task.dropWriter session room).1 := by
        simp only [Client.perform, ConnectionTask.perform, hphase]
      apply @SessionOutput.writerDropped _ _ _ _ _ _ _ [] session hout hleft
        (hnorequest _) rfl
      · rw [hstep]
        rfl
      · rw [hstep]
        exact g.task.connection.emits_nil.close
      · exact hnothing
  | cancel now =>
      obtain ⟨hover, htruncates⟩ :=
        @ConnectionTask.perform_cancel router now buffer _ _ _ room hphase
      exact hout.closed hsession rfl (hnorequest _) hover htruncates
  | _ =>
      apply hstage.idle
      · simp only [ConnectionTask.perform, hphase]
      · exact hnorequest _
      · exact .inr rfl

theorem Stage.perform_writerDropped {session : Session}
    (hphase : g.task.phase = .chatting session false) (hleft : g.left = none)
    (hout : g.SessionOutput) :
    (g.perform router buffer step room count).Stage
      (g.task.perform router buffer step room).2 := by
  have hsession : g.session? = some session := session?_of_chatting hphase
  have hnorequest : ∀ step, g.task.request? step room = none :=
    fun step => request?_of_phase (by simp [hphase]) step room
  cases step with
  | readFrame now =>
      rcases @ConnectionTask.perform_readFrame router now buffer _ _ _
          room hphase with
        ⟨connection, hstep, hemits, hgoes⟩ | ⟨hover, htruncates, hends⟩
      · obtain ⟨hsame, hpass⟩ := @perform_passes _ _ count _ _ _ _ hstep hemits
        apply hout.writerDropped hleft (hnorequest _) hgoes (hsame.trans hphase)
          hpass.truncates
        rw [List.append_nil]
        exact hout.output
      · exact hout.closed hsession hends (hnorequest _) hover htruncates
  | cancel now =>
      obtain ⟨hover, htruncates⟩ :=
        @ConnectionTask.perform_cancel router now buffer _ _ _ room hphase
      exact hout.closed hsession rfl (hnorequest _) hover htruncates
  | _ =>
      apply (Stage.writerDropped hphase hleft hout).idle
      · simp only [ConnectionTask.perform, hphase]
      · exact hnorequest _
      · exact .inr rfl

theorem Stage.perform_closed
    (hphase : g.task.phase = .ended ∨ ∃ due, g.task.phase = .stopping due)
    (hleft : g.left.isSome) (hout : g.SessionOutput) :
    (g.perform router buffer step room count).Stage
      (g.task.perform router buffer step room).2 := by
  have hsession : g.session? = none := by
    rcases hphase with hended | ⟨due, hstopping⟩
    · exact session?_of_phase hended rfl
    · exact session?_of_phase hstopping rfl
  have hnorequest : ∀ step, g.task.request? step room = none := by
    intro step
    rcases hphase with hended | ⟨due, hstopping⟩
    · exact request?_of_phase (by simp [hended]) step room
    · exact request?_of_phase (by simp [hstopping]) step room
  have hstage : g.Stage room := .closed hphase hleft hout
  have hover {step : AtomicStep}
      (hphase' : (g.perform router buffer step room count).task.phase =
      .ended ∨ ∃ due,
        (g.perform router buffer step room count).task.phase = .stopping due)
      (htruncates : g.task.connection.Truncates []
        (g.perform router buffer step room count).task.connection) :
      (g.perform router buffer step room count).Stage
        (g.task.perform router buffer step room).2 := by
    refine .closed hphase' ?_ (hout.pass (hnorequest _) htruncates)
    simpa [Client.perform, hsession] using hleft
  have hstop {step : AtomicStep}
      (hstep : g.task.perform router buffer step room =
      (g.task.stop, room)) : (g.perform router buffer step room count).Stage
        (g.task.perform router buffer step room).2 := by
    obtain ⟨hended, htruncates⟩ :=
      @perform_stop router buffer count step g room (by rw [hstep])
    exact hover (.inl hended) htruncates
  have hidle {step : AtomicStep}
      (hstep : g.task.perform router buffer step room =
      (g.task, room)) : (g.perform router buffer step room count).Stage
        (g.task.perform router buffer step room).2 :=
    hstage.idle hstep (hnorequest _) (.inl hsession)
  cases step with
  | cancel now => exact hstop (perform_cancel hsession)
  | flush =>
      rcases hphase with hended | ⟨due, hstopping⟩
      · exact hidle (by simp only [ConnectionTask.perform, hended])
      rcases g.task.perform_flush router buffer room with
        ⟨connection, hstep, hemits⟩ | ⟨htruncates, hended⟩
      · obtain ⟨hsame, hpass⟩ := @perform_passes _ _ count _ _ _ _ hstep hemits
        exact hover (.inr ⟨due, hsame.trans hstopping⟩) hpass.truncates
      · rw [hstopping] at hended
        exact hover (.inl hended) htruncates
  | stop =>
      rcases hphase with hended | ⟨due, hstopping⟩
      · exact hidle (by simp only [ConnectionTask.perform, hended])
      · exact hstop (by simp only [ConnectionTask.perform, hstopping])
  | _ =>
      rcases hphase with hended | ⟨due, hstopping⟩
      · exact hidle (by simp only [ConnectionTask.perform, hended])
      · exact hidle (by simp only [ConnectionTask.perform, hstopping])

/-- Every step of the tasks of a client keeps it in some stage. -/
theorem Stage.perform (h : g.Stage room) (hrouter : Chat.ChatRouter router)
    (hsound : room.bus.Sound) (buffer count : Nat) (step : AtomicStep) :
    (g.perform router buffer step room count).Stage
      (g.task.perform router buffer step room).2 := by
  cases h with
  | awaiting hphase hfresh hnothing =>
    exact perform_awaiting hrouter hphase hfresh hnothing
  | calling hphase hfresh hnothing hexpects =>
    exact perform_calling hphase hfresh hnothing hexpects
  | answering hphase hfresh hline hexpects =>
      exact perform_answering hsound hphase hfresh hline hexpects
  | refused hphase hfresh hpart => exact perform_refused hphase hfresh hpart
  | writing hphase hleft haccepted hwaiting hout houtput =>
      exact perform_writing hphase hleft haccepted hwaiting hout houtput
  | writerDropped hphase hleft hout =>
    exact perform_writerDropped hphase hleft hout
  | closed hphase hleft hout => exact perform_closed hphase hleft hout

end Client

end ChatRelay
