import Mathlib.Data.List.TakeWhile
import Mathlib.Logic.Relation
import ChatRelay.Proofs.Chat.EnvelopeLength
import ChatRelay.Proofs.Chat.EventSteps
import ChatRelay.Proofs.Link.Sending
import ChatRelay.Server.ConnectionTask
/-!
# Writing published events to a client

A session writes the published events as long as every envelope fits the frame
limit of its connection. The first envelope that does not fit ends the writer:
the events before it have been sent, and nothing is sent from then on.
-/

namespace ChatRelay

/-- A session that writes events to its client, with what was published and
received. -/
structure Writing where
  task : ConnectionTask
  room : Room
  published : List Event := []
  /-- The bytes that the client received. -/
  taken : Bytes := []

namespace Writing

/-- All bytes that were written. -/
def sent (w : Writing) : Bytes := w.taken ++ w.task.connection.sent

def publish (w : Writing) (event : Event) : Writing :=
  { w with
    room := (w.room.publish event).2, published := w.published ++ [event] }

def write (w : Writing) : Writing :=
  { w with
    task := (w.task.writeEvents w.room).1
    room := (w.task.writeEvents w.room).2 }

/-- The client receives what was written. -/
def collect (w : Writing) : Writing :=
  let (bytes, socket) := w.task.connection.socket.collect
  { w with
    task.connection.socket := socket
    taken := w.taken ++ bytes }

/-- Steps of others, and frames that the session reads: neither its slot nor its
output changes. -/
structure OtherStep (session : Session) (w w' : Writing) : Prop where
  phase : w'.task.phase = w.task.phase
  writer : w'.task.connection.writer = w.task.connection.writer
  reading : w'.task.connection.socket.reading = w.task.connection.socket.reading
  writable :
    w'.task.connection.socket.isWritable = w.task.connection.socket.isWritable
  outbox : w'.task.connection.socket.outbox = w.task.connection.socket.outbox
  known : w.room.bus.known = true → w'.room.bus.known = true
  slots : w'.room.bus.slots.count (some session.subscription.channel) =
    w.room.bus.slots.count (some session.subscription.channel)
  channel : w'.room.bus.channels[session.subscription.channel]? =
    w.room.bus.channels[session.subscription.channel]?
  published : w'.published = w.published
  taken : w'.taken = w.taken

/-- One step. An event is published only while the channel of the session is not
full. -/
inductive Step (session : Session) : Writing → Writing → Prop
  | publish {w : Writing} (event : Event)
      (hroom : ∀ c,
        w.room.bus.channels[session.subscription.channel]? = some c →
        c.queue.length < c.capacity) :
      Step session w (w.publish event)
  | write {w : Writing} : Step session w w.write
  | collect {w : Writing} : Step session w w.collect
  | apart {w w' : Writing} (h : OtherStep session w w') : Step session w w'

abbrev Steps (session : Session) : Writing → Writing → Prop :=
  Relation.ReflTransGen (Step session)

/-- Whether the codec accepts the envelope of an event. -/
def fits (limit : Nat) (event : Event) : Bool :=
  (Frame.encode limit event.bytes).isOk

/-- A session with a running writer: the first of the published events, all of
which fit, have been sent, and the others are in its channel. -/
structure Live (limit : Nat) (session : Session) (before : Bytes)
    (w : Writing) : Prop where
  phase : w.task.phase = .chatting session true
  flowing : w.task.connection.Flowing limit
  known : w.room.bus.known = true
  slots : w.room.bus.slots.count (some session.subscription.channel) = 1
  channel : ∃ c, w.room.bus.channels[session.subscription.channel]? = some c ∧
    c.isOpen = true ∧
    ∃ written, w.published = written ++ c.queue ∧
      (∀ event ∈ written, fits limit event = true) ∧
      w.sent = before ++ Frame.lines (written.map Event.bytes)

/-- A session without a writer: the events before one that does not fit have
been sent, and its channel accepts no more. -/
structure Silent (limit : Nat) (session : Session) (before : Bytes)
    (w : Writing) : Prop where
  phase : w.task.phase = .chatting session false
  closed : ∃ c, w.room.bus.channels[session.subscription.channel]? = some c ∧
  c.isOpen = false
  published : ∃ fitting long rest, w.published = fitting ++ long :: rest ∧
    (∀ event ∈ fitting, fits limit event = true) ∧ fits limit long = false ∧
      w.sent = before ++ Frame.lines (fitting.map Event.bytes)

section

variable {limit : Nat} {session : Session} {before : Bytes} {w w' : Writing}

theorem Live.publish (h : w.Live limit session before) (event : Event)
    (hroom : ∀ c, w.room.bus.channels[session.subscription.channel]? = some c →
      c.queue.length < c.capacity) :
        (w.publish event).Live limit session before := by
  obtain ⟨c, hc, hopen, written, hpublished, hfits, hsent⟩ := h.channel
  have hbus := (w.room.publishing event).bus
  rw [if_pos h.known] at hbus
  refine ⟨h.phase, h.flowing, ?_, ?_, { c with queue := c.queue ++ [event] },
    ?_, hopen, written, ?_, hfits, hsent⟩
  · change (w.room.publish event).2.bus.known = true
    rw [hbus]
    exact h.known
  · change (w.room.publish event).2.bus.slots.count _ = 1
    rw [hbus]
    exact h.slots
  · change (w.room.publish
      event).2.bus.channels[session.subscription.channel]? = _
    rw [hbus, Bus.publish_channels, hc, h.slots]
    exact congrArg some (Channel.send_open hopen (hroom c hc) event)
  · change w.published ++ [event] = _
    rw [hpublished, List.append_assoc]

theorem Silent.publish (h : w.Silent limit session before) (event : Event) :
    (w.publish event).Silent limit session before := by
  obtain ⟨c, hc, hclosed⟩ := h.closed
  obtain ⟨fitting, long, rest, hpublished, hfits, hlong, hsent⟩ := h.published
  refine ⟨h.phase, ⟨c, ?_, hclosed⟩, fitting, long, rest ++ [event], ?_, hfits,
    hlong, hsent⟩
  · change (w.room.publish
      event).2.bus.channels[session.subscription.channel]? = some c
    rw [(w.room.publishing event).bus]
    split
    · rw [Bus.publish_channels, hc]
      exact congrArg some
        (Function.iterate_fixed (Channel.send_closed hclosed event) _)
    · exact hc
  · change w.published ++ [event] = _
    rw [hpublished, List.append_assoc, List.cons_append]

theorem fits_iff {event : Event} :
    fits limit event = true ↔ event.bytes.length ≤ limit := by
  rw [fits, Frame.encode]
  by_cases hlong : limit < event.bytes.length
  · simp [hlong, Except.isOk, Except.toBool]
  · simp [hlong, Except.isOk, Except.toBool, Nat.not_lt.mp hlong]

theorem lengths_of_fits {events : List Event}
    (h : ∀ event ∈ events, fits limit event = true) :
    ∀ text ∈ events.map Event.bytes, text.length ≤ limit := by
  intro text htext
  obtain ⟨event, hevent, rfl⟩ := List.mem_map.mp htext
  exact fits_iff.mp (h event hevent)

theorem split_at_long (limit : Nat) (events : List Event) :
    (∀ event ∈ events, fits limit event = true) ∨
      ∃ fitting long rest, events = fitting ++ long :: rest ∧
        (∀ event ∈ fitting, fits limit event = true) ∧
        fits limit long = false := by
  induction events with
  | nil => exact .inl (by simp)
  | cons event events ih =>
      cases hevent : fits limit event with
      | false => exact .inr ⟨[], event, events, rfl, by simp, hevent⟩
      | true =>
          rcases ih with hall | ⟨fitting, long, rest, rfl, hfits, hlong⟩
          · exact .inl (by simpa [hevent] using hall)
          · exact .inr ⟨event :: fitting, long, rest, rfl, by simpa [hevent]
              using hfits, hlong⟩

/-- A session sends all waiting events if all of them fit. -/
theorem session_write_fitting {c : Connection} {room : Room}
    (hflowing : c.Flowing limit)
    (hfits : ∀ event ∈ session.waiting room, fits limit event = true) :
    ∃ c', session.write (session.waiting room).length c room =
      (.written, c', { room with
        bus :=
          room.bus.modify session.subscription.channel
            fun ch => { ch with queue := [] } }) ∧
      c'.Flowing limit ∧
      c'.sent =
        c.sent ++ Frame.lines ((session.waiting room).map Event.bytes) := by
  obtain ⟨c', hwrite, hflowing', hsent⟩ :=
    hflowing.writeAll (lengths_of_fits hfits)
  refine ⟨c', ?_, hflowing', hsent⟩
  simp only [Session.write, hflowing.flush, List.take_length, hwrite,
    List.length_nil, Nat.sub_zero, List.drop_length]

/-- A session stops at the first envelope that does not fit. -/
theorem session_write_long {c : Connection} {room : Room}
    (hflowing : c.Flowing limit) {fitting rest : List Event} {long : Event}
    (hwaiting : session.waiting room = fitting ++ long :: rest)
    (hfits : ∀ event ∈ fitting, fits limit event = true)
    (hlong : fits limit long = false) :
    ∃ c', session.write (session.waiting room).length c room =
        (.error (.tooLarge long.bytes.length limit), c', { room with
          bus := room.bus.modify session.subscription.channel fun ch =>
            { ch with queue := rest } }) ∧
      c'.sent = c.sent ++ Frame.lines (fitting.map Event.bytes) := by
  have hlong' : limit < long.bytes.length := by
    rw [← Nat.not_le, ← fits_iff, hlong]
    exact Bool.false_ne_true
  obtain ⟨c', hwrite, -, hsent⟩ :=
    @Connection.Flowing.writeAll_long _ _ hflowing _ (rest.map Event.bytes) _
      (lengths_of_fits hfits) hlong'
  have hrest : (fitting ++ long :: rest).drop
      ((fitting ++ long :: rest).length - rest.length) = rest := by
    have hlength : (fitting ++ long :: rest).length - rest.length =
        (fitting ++ [long]).length := by
      simp
      omega
    rw [hlength, List.append_cons fitting long rest, List.drop_left]
  refine ⟨c', ?_, hsent⟩
  simp only [Session.write, hflowing.flush, List.take_length, hwaiting,
    List.map_append, List.map_cons, hwrite, List.length_map, hrest]

theorem modify_channel {bus : Bus Event} {n : Nat} {ch : Channel Event}
    (hch : bus.channels[n]? = some ch) (f : Channel Event → Channel Event) :
    (bus.modify n f).channels[n]? = some (f ch) := by
  rw [Bus.modify, List.getElem?_modify_eq, hch]
  rfl

theorem Live.write_fitting (h : w.Live limit session before)
    (hall : ∀ event ∈ w.published, fits limit event = true) :
    w.write.Live limit session before ∧
      w.write.sent = before ++ Frame.lines (w.published.map Event.bytes) := by
  obtain ⟨ch, hch, hopen, written, hpublished, hfits, hsent⟩ := h.channel
  have hwaiting : session.waiting w.room = ch.queue := by
    rw [Session.waiting, hch]
    rfl
  have hqueue : ∀ event ∈ session.waiting w.room, fits limit event = true := by
    rw [hwaiting]
    intro event hevent
    exact hall event (hpublished ▸ List.mem_append_right written hevent)
  obtain ⟨c', hwrite, hflowing', hsent'⟩ :=
    session_write_fitting h.flowing hqueue
  have hevents : w.task.writeEvents w.room = ({ w.task with connection := c' },
      { w.room with
        bus := w.room.bus.modify session.subscription.channel fun ch =>
          { ch with queue := [] } }) := by
    simp only [ConnectionTask.writeEvents, h.phase,
      ConnectionTask.writeQueued, hwrite]
  have hall' :
      w.write.sent = before ++ Frame.lines (w.published.map Event.bytes) := by
    simp only [write, sent, hevents, hsent', hwaiting]
    rw [← List.append_assoc, ← sent, hsent, hpublished, List.map_append,
      Frame.lines_append, List.append_assoc]
  refine ⟨⟨?_, ?_, ?_, ?_, { ch with queue := [] }, ?_, hopen, w.published, ?_,
    hall, hall'⟩, hall'⟩
  · simp only [write, hevents, h.phase]
  · simpa only [write, hevents] using hflowing'
  · simp only [write, hevents]
    exact h.known
  · simp only [write, hevents]
    exact h.slots
  · simp only [write, hevents, modify_channel hch]
  · exact (List.append_nil _).symm

/-- The writer ends at the first envelope that does not fit. -/
theorem Live.write_long (h : w.Live limit session before)
    {fitting rest : List Event} {long : Event}
    (hpublished : w.published = fitting ++ long :: rest)
    (hfits : ∀ event ∈ fitting, fits limit event = true)
    (hlong : fits limit long = false) :
    w.write.Silent limit session before := by
  obtain ⟨ch, hch, hopen, written, hparts, hwritten, hsent⟩ := h.channel
  -- all sent events fit, so the first that does not is still in the channel
  obtain ⟨waiting, hfitting, hqueue⟩ : ∃ waiting, fitting = written ++ waiting ∧
      ch.queue = waiting ++ long :: rest := by
    rcases List.append_eq_append_iff.mp (hpublished.symm.trans hparts) with
      ⟨more, hmore, htail⟩ | ⟨waiting, hfitting, hqueue⟩
    · cases more with
      | nil => exact ⟨[], by simpa using hmore.symm, by simpa using htail.symm⟩
      | cons event more =>
          obtain ⟨rfl, -⟩ := List.cons.inj htail
          have := hwritten long (by simp [hmore])
          simp [this] at hlong
    · exact ⟨waiting, hfitting, hqueue⟩
  have hwaiting : session.waiting w.room = waiting ++ long :: rest := by
    rw [Session.waiting, hch, ← hqueue]
    rfl
  obtain ⟨c', hwrite, hsent'⟩ := session_write_long h.flowing hwaiting
    (fun event hevent => hfits event (by simp [hfitting, hevent])) hlong
  have hevents : w.task.writeEvents w.room =
      ({ w.task with connection := c'.close, phase := .chatting session false },
        session.dropReceiver { w.room with
          bus := w.room.bus.modify session.subscription.channel fun ch =>
            { ch with queue := rest } }) := by
    simp only [ConnectionTask.writeEvents, h.phase, ConnectionTask.writeQueued,
      hwrite, ConnectionTask.dropWriter]
  have hdiscard : w.write.room.bus.channels[session.subscription.channel]? =
      some (Channel.discard { ch with queue := rest }) := by
    simp only [write, hevents, Session.dropReceiver]
    exact modify_channel (modify_channel hch _) _
  refine ⟨?_, ⟨_, hdiscard, rfl⟩, fitting, long, rest, hpublished,
    hfits, hlong, ?_⟩
  · simp only [write, hevents]
  · have hclose : c'.close.sent = c'.sent := rfl
    simp only [write, sent, hevents, hclose, hsent']
    rw [← List.append_assoc, ← sent, hsent, hfitting, List.map_append,
      Frame.lines_append, List.append_assoc]

theorem Silent.write (h : w.Silent limit session before) :
    w.write.Silent limit session before := by
  have hsame : w.write = w := by
    simp only [Writing.write, ConnectionTask.writeEvents, h.phase]
  rwa [hsame]

theorem collect_sent (w : Writing) : w.collect.sent = w.sent := by
  cases hreading : w.task.connection.socket.reading with
  | false => simp [collect, sent, Connection.sent, Socket.collect, hreading]
  | true => simp [collect, sent, Connection.sent, Socket.collect, hreading]

theorem collect_flowing (h : w.task.connection.Flowing limit) :
    w.collect.task.connection.Flowing limit := by
  have hcollect : w.task.connection.socket.collect =
      (w.task.connection.socket.outbox.reverse.flatten,
        { w.task.connection.socket with outbox := [], underway := 0 }) := by
    rw [Socket.collect, if_pos h.reading]
  simp only [collect, hcollect]
  exact ⟨h.limit_eq, h.waiting, h.reading, h.writable⟩

theorem Live.collect (h : w.Live limit session before) :
    w.collect.Live limit session before := by
  obtain ⟨c, hc, hopen, written, hpublished, hfits, hsent⟩ := h.channel
  exact ⟨h.phase, collect_flowing h.flowing, h.known, h.slots, c, hc, hopen,
    written, hpublished, hfits, w.collect_sent.trans hsent⟩

theorem Silent.collect (h : w.Silent limit session before) :
    w.collect.Silent limit session before := by
  obtain ⟨fitting, long, rest, hpublished, hfits, hlong, hsent⟩ := h.published
  exact ⟨h.phase, h.closed, fitting, long, rest, hpublished, hfits, hlong,
    w.collect_sent.trans hsent⟩

theorem OtherStep.sent (h : OtherStep session w w') : w'.sent = w.sent := by
  rw [Writing.sent, Writing.sent, Connection.sent, Connection.sent,
    h.taken, h.outbox]

theorem Live.apart (h : w.Live limit session before)
    (hapart : OtherStep session w w') :
    w'.Live limit session before := by
  have hflowing : w'.task.connection.Flowing limit :=
    ⟨hapart.writer ▸ h.flowing.limit_eq, hapart.writer ▸ h.flowing.waiting,
      hapart.reading.trans h.flowing.reading,
        hapart.writable.trans h.flowing.writable⟩
  refine ⟨hapart.phase.trans h.phase, hflowing, hapart.known h.known,
    hapart.slots.trans h.slots, ?_⟩
  rw [hapart.channel, hapart.published, hapart.sent]
  exact h.channel

theorem Silent.apart (h : w.Silent limit session before)
    (hapart : OtherStep session w w') :
    w'.Silent limit session before := by
  refine ⟨hapart.phase.trans h.phase, ?_, ?_⟩
  · rw [hapart.channel]
    exact h.closed
  · rw [hapart.published, hapart.sent]
    exact h.published

theorem Step.live_or_silent (hstep : Step session w w')
    (h : w.Live limit session before ∨ w.Silent limit session before) :
    w'.Live limit session before ∨ w'.Silent limit session before := by
  rcases h with hlive | hsilent
  · cases hstep with
    | publish event hroom => exact .inl (hlive.publish event hroom)
    | write =>
        rcases split_at_long limit w.published
          with hall | ⟨_, _, _, hpublished, hfits, hlong⟩
        · exact .inl (hlive.write_fitting hall).1
        · exact .inr (hlive.write_long hpublished hfits hlong)
    | collect => exact .inl hlive.collect
    | apart hapart => exact .inl (hlive.apart hapart)
  · cases hstep with
    | publish event => exact .inr (hsilent.publish event)
    | write => exact .inr hsilent.write
    | collect => exact .inr hsilent.collect
    | apart hapart => exact .inr (hsilent.apart hapart)

theorem Steps.live_or_silent (hsteps : Steps session w w')
    (h : w.Live limit session before ∨ w.Silent limit session before) :
    w'.Live limit session before ∨ w'.Silent limit session before := by
  induction hsteps with
  | refl => exact h
  | tail _ hstep ih => exact hstep.live_or_silent ih

/-- A session that has just begun has a running writer. -/
theorem live_begin {user : Int} {buffer : Nat} {room begun : Room}
    {c : ConnectionTask} (hplaced : room.bus.Placed)
    (hbegin : Session.begin? user buffer room = some (session, begun))
    (hphase : c.phase = .chatting session true)
    (hflowing : c.connection.Flowing limit) :
    Live limit session c.connection.sent { task := c, room := begun } := by
  simp only [Session.begin?, Option.bind_eq_bind, Option.bind_eq_some_iff,
    Option.pure_def, Option.some.injEq, Prod.mk.injEq, Prod.exists] at hbegin
  obtain ⟨subscription, bus, hsubscription, rfl, rfl⟩ := hbegin
  obtain ⟨hknown, hslots, ch, hch, hopen, hqueue⟩ :=
    Bus.subscription?_channel hplaced hsubscription
  exact ⟨hphase, hflowing, hknown, hslots, ch, hch, hopen, [],
    by rw [hqueue]; rfl, by simp, by simp [sent, Frame.lines_nil]⟩

/-- The state of the writer after the session is polled: it runs if and only if
all published events fit, and the events before the first that does not have
been sent. -/
structure Settled (limit : Nat) (session : Session) (before : Bytes)
    (w : Writing) : Prop where
  phase : w.task.phase = .chatting session (w.published.all (fits limit))
  sent : w.sent =
    before ++ Frame.lines ((w.published.takeWhile (fits limit)).map Event.bytes)

theorem Silent.settled (h : w.Silent limit session before) :
    w.Settled limit session before := by
  obtain ⟨fitting, long, rest, hpublished, hfits, hlong, hsent⟩ := h.published
  have hall : w.published.all (fits limit) = false := by
    rw [hpublished, List.all_append, List.all_cons, hlong, Bool.false_and,
      Bool.and_false]
  have htake : w.published.takeWhile (fits limit) = fitting := by
    rw [hpublished, List.takeWhile_append_of_pos hfits,
      List.takeWhile_cons_of_neg (by simp [hlong]), List.append_nil]
  exact ⟨by rw [hall, h.phase], by rw [htake, hsent]⟩

theorem Live.write_settled (h : w.Live limit session before) :
    w.write.Settled limit session before := by
  rcases split_at_long limit w.published
    with hall | ⟨_, _, _, hpublished, hfits, hlong⟩
  · obtain ⟨hlive, hsent⟩ := h.write_fitting hall
    have htake := List.takeWhile_eq_self_iff.mpr hall
    refine ⟨?_, ?_⟩
    · rw [hlive.phase]
      exact congrArg _ (List.all_eq_true.mpr hall).symm
    · rw [hsent]
      change _ = before ++
        Frame.lines ((w.published.takeWhile (fits limit)).map Event.bytes)
      rw [htake]
  · exact (h.write_long hpublished hfits hlong).settled

theorem fits_kept {speaker : Int} {now : Time} {event kept : Event}
    {room : Room} (h : (Session.persist speaker now event room).1 = some kept) :
    fits limit kept = true ↔
      Session.envelopeLength speaker (room.unixMillis now) event.message.text ≤
        limit := by
  rw [fits_iff, Session.length_persist h]

/-- In every run of a session whose client reads and whose channel is never
full, the writer runs exactly as long as all published envelopes fit: after the
session is polled it still runs if they all do, and it has sent those before the
first that does not. The envelope of a stored message is accepted if and only if
the length given by its text, its user and its time is within the limit. -/
theorem writes_iff_fits {user : Int} {buffer : Nat} {room begun : Room}
    {c : ConnectionTask} (hplaced : room.bus.Placed)
    (hbegin : Session.begin? user buffer room = some (session, begun))
    (hphase : c.phase = .chatting session true)
    (hflowing : c.connection.Flowing limit)
    (hrun : Steps session { task := c, room := begun } w) :
    w.write.Settled limit session c.connection.sent ∧
    ∀ speaker now event room kept,
      (Session.persist speaker now event room).1 = some kept →
      (fits limit kept = true ↔
        Session.envelopeLength speaker (room.unixMillis now)
          event.message.text ≤ limit) := by
  refine ⟨?_, fun speaker now event room kept hkept => fits_kept hkept⟩
  rcases hrun.live_or_silent (.inl (live_begin hplaced hbegin hphase hflowing))
    with hlive | hsilent
  · exact hlive.write_settled
  · exact hsilent.write.settled

end

def sampleFrame : Bytes :=
  Utf8.ofString ("\x7b\"type\":\"NewMessageEvent\",\"payload\":" ++
    "\x7b\"sender_id\":4,\"message_kind\":2," ++
    "\"message\":\"aaaaaaaaaaaaaaaaaaaa\"\x7d\x7d")

/-- The event of this frame, as a session of user 2 stores it. -/
def sampleLong : Event :=
  .newMessage ⟨(Uuid.random 0).text, 2, .userText, "aaaaaaaaaaaaaaaaaaaa", 0, 0⟩

/-- An event with a shorter text. -/
def sampleShort : Event :=
  .newMessage ⟨(Uuid.random 1).text, 2, .userText, "b", 0, 0⟩

/-- A session of user 1 that has just begun, on a connection with a limit of 170
bytes. -/
def sampleStart : Writing where
  task := {
    connection := Connection.ofLimit 0 170
    phase := .chatting ⟨1, ⟨0, 0⟩⟩ true }
  room := ((Session.begin? 1 4 {}).map Prod.snd).getD {}

theorem sampleStart_writes_iff_fits :
    Settled 170 ⟨1, ⟨0, 0⟩⟩ []
      ((sampleStart.publish sampleLong).publish sampleShort).write := by
  have hroom (w : Writing)
      (h : ((w.room.bus.channels[0]?).all
        fun c => decide (c.queue.length < c.capacity)) = true) :
      ∀ c, w.room.bus.channels[0]? = some c → c.queue.length < c.capacity := by
    intro c hc
    rw [hc] at h
    simpa using h
  have hfirst : Step ⟨1, ⟨0, 0⟩⟩ sampleStart (sampleStart.publish sampleLong) :=
    .publish sampleLong (hroom sampleStart (by decide +kernel))
  have hsecond : Step ⟨1, ⟨0, 0⟩⟩ (sampleStart.publish sampleLong)
      ((sampleStart.publish sampleLong).publish sampleShort) :=
    .publish sampleShort
      (hroom (sampleStart.publish sampleLong) (by decide +kernel))
  have hplaced : ({} : Room).bus.Placed := fun _ h => absurd h List.not_mem_nil
  have hbegin : Session.begin? 1 4 {} = some (⟨1, ⟨0, 0⟩⟩, sampleStart.room) :=
    rfl
  exact (writes_iff_fits hplaced hbegin rfl ⟨rfl, rfl, rfl, rfl⟩
    ((Relation.ReflTransGen.single hfirst).tail hsecond)).1

/-- A frame within the limit holds a message whose envelope is refused. The
session that should send it drops its writer and sends nothing more, not even an
event that fits. -/
theorem accepted_frame_silences :
    sampleFrame.length ≤ 170 ∧
      ((Session.eventOf sampleFrame).toOption.bind fun event =>
        (Session.persist 2 0 event {}).1) = some sampleLong ∧
      Frame.encode 170 sampleLong.bytes =
        .error (.tooLarge sampleLong.bytes.length 170) ∧
      fits 170 sampleShort = true ∧
      let last :=
        ((sampleStart.publish sampleLong).write.publish sampleShort).write
      (last.task.phase matches .chatting _ false) = true ∧ last.sent = [] := by
  decide +kernel

end Writing

end ChatRelay
