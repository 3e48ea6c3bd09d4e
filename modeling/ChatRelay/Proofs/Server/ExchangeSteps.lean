import Mathlib.Data.List.Infix
import ChatRelay.Proofs.Link.Output
import ChatRelay.Server.ConnectionTask
/-!
# The states of an exchange

After the first frame has been read, the task waits for the handler, writes the
response, runs an upgraded protocol, or has ended. The invariant determines the
output in each of these states, and is preserved by every step of the task.
-/

namespace ChatRelay

/-- The frames written by an upgraded protocol. -/
def Upgrade.Writes : Upgrade → Bytes → Prop
  | echo, _ => True
  | chat _, frame => ∃ event : Event, frame = event.bytes

/-- The upgraded protocol is running and still writes. -/
def Upgrade.IsOpen : Upgrade → Phase → Prop
  | echo, phase => phase = .echoing
  | chat _, phase => ∃ session, phase = .chatting session true

/-- The phases in which no further frames are written. -/
inductive Phase.IsFinal : Phase → Prop
  | writerDropped (session : Session) : IsFinal (.chatting session false)
  | stopping (due : Time) : IsFinal (.stopping due)
  | ended : IsFinal .ended

/-- An expected response, with the time at which it is available and whether the
request admits an upgrade. -/
structure DueResponse where
  due : Time
  response : Response
  streaming : Bool

namespace DueResponse

/-- The bytes of the response with its line feed. -/
def line (a : DueResponse) : Bytes := Frame.lines [a.response.bytes]

def Fits (limit : Nat) (a : DueResponse) : Prop :=
  a.response.bytes.length ≤ limit

/-- The response starts an upgraded protocol. -/
def Upgrades (a : DueResponse) (upgrade : Upgrade) : Prop :=
  a.streaming = true ∧ a.response.upgrade = some upgrade

/-- The frames that may follow the response. -/
def FollowedBy (a : DueResponse) (frames : List Bytes) : Prop :=
  frames = [] ∨ ∃ upgrade, a.Upgrades upgrade ∧ ∀ frame ∈ frames,
    upgrade.Writes frame

end DueResponse

namespace Answering

/-- The connection of a client that does not disconnect if `stays` and does not
stop reading if `reads`. -/
structure Peer (limit : Nat) (stays reads : Prop) (c : Connection) : Prop where
  limit_eq : c.writer.limit = limit
  gone : stays → c.socket.gone = false
  reading : reads → c.socket.reading = true

/-- Nothing has been sent, and the writing side is open. -/
structure NothingSent (taken : Bytes) (c : Connection) : Prop where
  nothing : taken ++ c.output = []
  closed : c.socket.closed = false

structure Calling (a : DueResponse) (taken : Bytes)
    (c : ConnectionTask) : Prop where
  phase : ∃ records,
    c.phase = .calling (some a.due) a.response records a.streaming
  fresh : NothingSent taken c.connection

/-- The response was sent completely, and the output continues with at most the
given frames. -/
structure ResponseSent (limit : Nat) (a : DueResponse) (frames : List Bytes)
    (taken : Bytes) (c : Connection) : Prop where
  fits : a.Fits limit
  follows : a.FollowedBy frames
  line : a.line <+: taken ++ c.sent
  output : taken ++ c.output <+: Frame.lines (a.response.bytes :: frames)

/-- The response was sent completely, and the output continues with frames of
the upgraded protocol. -/
structure SessionOpen (limit : Nat) (a : DueResponse) (upgrade : Upgrade)
    (taken : Bytes) (c : Connection) : Prop where
  fits : a.Fits limit
  opens : a.Upgrades upgrade
  line : a.line <+: taken ++ c.sent
  output : ∃ frames, (∀ frame ∈ frames, upgrade.Writes frame) ∧
    taken ++ c.output = Frame.lines (a.response.bytes :: frames)

inductive Progress (limit : Nat) (stays reads : Prop)
    (expected : Option DueResponse) (taken : Bytes) (c : ConnectionTask) : Prop
  /-- The handler never replies. -/
  | never {streaming : Bool}
      (hphase : c.phase = .calling none default [] streaming)
      (hexpected : expected = none)
      (hnothing : taken ++ c.connection.output = [])
  /-- There is no response, or it exceeds the limit. -/
  | refused (hphase : c.phase = .ended)
      (hexpected : ∀ a ∈ expected, ¬ a.Fits limit)
      (hnothing : taken ++ c.connection.output = [])
  /-- The client disconnected. -/
  | cut {a : DueResponse} (hphase : c.phase = .ended)
      (hexpected : expected = some a) (hfits : a.Fits limit)
      (hleft : ¬ stays) (hpart : taken ++ c.connection.output <+: a.line)
  /-- The client does not read. -/
  | answering {a : DueResponse}
      (hphase : c.phase = .answering a.response.upgrade a.streaming)
      (hexpected : expected = some a) (hfits : a.Fits limit) (hrests : ¬ reads)
      (hclosed : c.connection.socket.closed = false)
      (hline : taken ++ c.connection.output = a.line)
  | session {a : DueResponse} {upgrade : Upgrade}
      (hphase : upgrade.IsOpen c.phase) (hexpected : expected = some a)
      (hopened : SessionOpen limit a upgrade taken c.connection)
  | last {a : DueResponse} {frames : List Bytes} (hphase : c.phase.IsFinal)
      (hexpected : expected = some a)
      (hsent : ResponseSent limit a frames taken c.connection)

/-- The invariant of an exchange after its first frame. -/
structure ExchangeInvariant (limit : Nat) (stays reads : Prop)
    (expected : Option DueResponse) (taken : Bytes)
    (c : ConnectionTask) : Prop where
  peer : Peer limit stays reads c.connection
  answered : Progress limit stays reads expected taken c

section

variable {limit : Nat} {stays reads : Prop} {a : DueResponse}
    {expected : Option DueResponse}
  {frames : List Bytes} {taken text : Bytes} {c c' : Connection} {now : Time}
    {buffer : Nat}
  {room : Room}

theorem Peer.advances (h : Peer limit stays reads c) (hc : c.Advances c') :
    Peer limit stays reads c' :=
  ⟨hc.limit.trans h.limit_eq, fun hstays => hc.gone.trans (h.gone hstays),
    fun hreads => hc.reading.trans (h.reading hreads)⟩

theorem Peer.close (h : Peer limit stays reads c) :
    Peer limit stays reads c.close :=
  ⟨h.limit_eq, h.gone, h.reading⟩

/-- A write to an open stream fails only if the client disconnected. -/
theorem Peer.left (h : Peer limit stays reads c)
    (hclosed : c.socket.closed = false)
    (hwritable : c.socket.isWritable = false) : ¬ stays := by
  intro hstays
  simp [Socket.isWritable, hclosed, h.gone hstays] at hwritable

theorem Peer.rests (h : Peer limit stays reads c)
    (hreading : c.socket.reading = false) :
    ¬ reads := by
  intro hreads
  simp [h.reading hreads] at hreading

theorem NothingSent.emits (h : NothingSent taken c) (hc : c.Emits [] c') :
    NothingSent taken c' := by
  refine ⟨?_, hc.closed.trans h.closed⟩
  rw [hc.output, List.append_nil]
  exact h.nothing

theorem NothingSent.sent (h : NothingSent taken c) : taken ++ c.sent = [] := by
  have hnothing := h.nothing
  rw [Connection.output, ← List.append_assoc] at hnothing
  exact (List.append_eq_nil_iff.mp hnothing).1

theorem sent_grows (taken : Bytes) (hc : c.Advances c') :
    taken ++ c.sent <+: taken ++ c'.sent :=
  (List.prefix_append_right_inj taken).mpr hc.sent

theorem sent_prefix_output (taken : Bytes) (c : Connection) :
    taken ++ c.sent <+: taken ++ c.output :=
  (List.prefix_append_right_inj taken).mpr c.sent_prefix_output

theorem SessionOpen.responseSent {upgrade : Upgrade}
    (h : SessionOpen limit a upgrade taken c) :
    ∃ frames, ResponseSent limit a frames taken c := by
  obtain ⟨frames, hsent, hall⟩ := h.output
  refine ⟨frames, h.fits, .inr ⟨upgrade, h.opens, hsent⟩, h.line, ?_⟩
  rw [hall]

/-- The upgraded protocol writes more frames. -/
theorem SessionOpen.emits {upgrade : Upgrade} {more : List Bytes}
    (h : SessionOpen limit a upgrade taken c)
    (hmore : ∀ frame ∈ more, upgrade.Writes frame)
    (hc : c.Emits (Frame.lines more) c') :
    SessionOpen limit a upgrade taken c' := by
  obtain ⟨frames, hsent, hall⟩ := h.output
  refine ⟨h.fits, h.opens, h.line.trans (sent_grows taken hc.toAdvances),
    frames ++ more, ?_, ?_⟩
  · intro frame hframe
    exact (List.mem_append.mp hframe).elim (hsent frame) (hmore frame)
  · rw [hc.output, ← List.append_assoc, hall, ← Frame.lines_append,
      List.cons_append]

theorem SessionOpen.pass {upgrade : Upgrade}
    (h : SessionOpen limit a upgrade taken c) (hc : c.Emits [] c') :
    SessionOpen limit a upgrade taken c' := by
  apply @SessionOpen.emits _ _ _ _ _ _ [] h
  · simp
  · exact hc

/-- The stream fails while the upgraded protocol writes, and is closed. -/
theorem SessionOpen.fails {upgrade : Upgrade} {more : List Bytes}
    (h : SessionOpen limit a upgrade taken c)
    (hmore : ∀ frame ∈ more, upgrade.Writes frame)
    (hc : c.Fails (Frame.lines more) c') :
    ∃ frames, ResponseSent limit a frames taken c'.close := by
  obtain ⟨frames, hsent, hall⟩ := h.output
  have hline : a.line <+: taken ++ c'.sent :=
    h.line.trans (sent_grows taken hc.toAdvances)
  refine ⟨frames ++ more, h.fits, .inr ⟨upgrade, h.opens, ?_⟩, hline, ?_⟩
  · intro frame hframe
    exact (List.mem_append.mp hframe).elim (hsent frame) (hmore frame)
  · rw [Connection.close_output, ← List.cons_append, Frame.lines_append, ← hall,
      List.append_assoc]
    exact (List.prefix_append_right_inj taken).mpr hc.part

theorem ResponseSent.emits (h : ResponseSent limit a frames taken c)
    (hc : c.Emits [] c') :
    ResponseSent limit a frames taken c' := by
  refine ⟨h.fits, h.follows, h.line.trans (sent_grows taken hc.toAdvances), ?_⟩
  rw [hc.output, List.append_nil]
  exact h.output

theorem ResponseSent.close (h : ResponseSent limit a frames taken c) :
    ResponseSent limit a frames taken c.close := by
  refine ⟨h.fits, h.follows, h.line, ?_⟩
  rw [Connection.close_output]
  exact (sent_prefix_output taken c).trans h.output

end

section

variable {limit : Nat} {stays reads : Prop} {a : DueResponse}
    {expected : Option DueResponse} {upgrade : Upgrade}
  {user : Int} {frames : List Bytes} {taken : Bytes} {c : ConnectionTask}
    {now : Time} {buffer : Nat}
  {session : Session} {writing : Bool} {room : Room}

theorem stop_invariant (hpeer : Peer limit stays reads c.connection)
    (hsent : ResponseSent limit a frames taken c.connection) :
    ExchangeInvariant limit stays reads (some a) taken c.stop :=
  ⟨hpeer.close, .last .ended rfl hsent.close⟩

theorem endReading_invariant (hpeer : Peer limit stays reads c.connection)
    (hsent : ResponseSent limit a frames taken c.connection) (e : FrameError) :
    ExchangeInvariant limit stays reads (some a) taken
      (ConnectionTask.endReading now session writing e c room).1 := by
  unfold ConnectionTask.endReading ConnectionTask.endSession
  simp only
  split
  · exact ⟨hpeer, .last (.stopping _) rfl hsent⟩
  · exact stop_invariant hpeer hsent

/-- A session with a writer reads frames. -/
theorem readFrames_sessionOpen (hpeer : Peer limit stays reads c.connection)
    (hphase : c.phase = .chatting session true)
    (h : SessionOpen limit a (.chat user) taken c.connection) :
    ExchangeInvariant limit stays reads (some a) taken
      (ConnectionTask.readFrames now session true c room).1 := by
  have hread := c.connection.readAll_emits
  have hpeer' := hpeer.advances hread.toAdvances
  have hopened := h.pass hread
  have hopen : (Upgrade.chat user).IsOpen c.phase := ⟨session, hphase⟩
  simp only [ConnectionTask.readFrames]
  split
  · exact ⟨hpeer', .session hopen rfl hopened⟩
  · obtain ⟨frames, hsent⟩ := hopened.responseSent
    exact endReading_invariant hpeer' hsent _

/-- A session without a writer reads frames. -/
theorem readFrames_writerDropped (hpeer : Peer limit stays reads c.connection)
    (hphase : c.phase = .chatting session false)
    (h : ResponseSent limit a frames taken c.connection) :
    ExchangeInvariant limit stays reads (some a) taken
      (ConnectionTask.readFrames now session false c room).1 := by
  have hread := c.connection.readAll_emits
  have hpeer' := hpeer.advances hread.toAdvances
  simp only [ConnectionTask.readFrames]
  split
  · exact ⟨hpeer', .last (hphase ▸ .writerDropped session) rfl (h.emits hread)⟩
  · exact endReading_invariant hpeer' (h.emits hread) _

/-- A session writes the frames of events. -/
theorem session_write_result (n : Nat) (session : Session) (c : Connection)
    (room : Room) :
    ∃ texts, (∀ text ∈ texts, ∃ event : Event, text = event.bytes) ∧
      c.WriteResult (Frame.lines texts) (session.write n c room).1
        (session.write n c room).2.1 := by
  have hflush := c.flush_result
  unfold Session.write
  split
  · next c' hwritten =>
    rw [hwritten] at hflush
    obtain ⟨texts, hsub, hresult⟩ :=
      c'.writeAll_result (((session.waiting room).take n).map Event.bytes)
    refine ⟨texts, fun text htext => ?_, Connection.Emits.result hflush hresult⟩
    obtain ⟨event, -, rfl⟩ := List.mem_map.mp (hsub htext)
    exact ⟨event, rfl⟩
  · next other c' _ hother =>
    rw [hother] at hflush
    exact ⟨[], by simp, hflush⟩

/-- A session writes the events in its channel. -/
theorem writeQueued_invariant (n : Nat)
    (hpeer : Peer limit stays reads c.connection)
    (hphase : c.phase = .chatting session true)
    (h : SessionOpen limit a (.chat user) taken c.connection) :
    ExchangeInvariant limit stays reads (some a) taken
      (ConnectionTask.writeQueued n session c room).1 := by
  obtain ⟨texts, hsent, hresult⟩ :=
    session_write_result n session c.connection room
  have hopen : (Upgrade.chat user).IsOpen c.phase := ⟨session, hphase⟩
  generalize hwrite : session.write n c.connection room = written at hresult
  obtain ⟨outgoing, connection, room'⟩ := written
  simp only [ConnectionTask.writeQueued, hwrite]
  cases outgoing with
  | written =>
    exact ⟨hpeer.advances hresult.toAdvances,
      .session hopen rfl (h.emits hsent hresult)⟩
  | blocked =>
    exact ⟨hpeer.advances hresult.toAdvances,
      .session hopen rfl (h.emits hsent hresult)⟩
  | error e =>
      obtain ⟨frames, hsent⟩ := h.fails hsent hresult
      exact ⟨(hpeer.advances hresult.toAdvances).close,
        .last (.writerDropped session) rfl hsent⟩

/-- The echo of one frame. -/
theorem echo_frame {c c' : Connection} {frame : Bytes}
    (hread : c.read = (.frame frame, c')) :
    c.WriteResult (Frame.lines [frame]) (c'.write frame).1
      (c'.write frame).2 := by
  have hemits : c.Emits [] c' := by simpa only [hread] using c.read_emits
  rw [Frame.lines_singleton]
  exact hemits.result (c'.write_result frame)

/-- The output of the echo protocol. It continues unless the stream failed or
ended. -/
theorem echo_result (c : Connection) : ∃ frames,
    c.Fails (Frame.lines frames) (ConnectionTask.echo c).2 ∧
      ((ConnectionTask.echo c).1 = true →
        c.Emits (Frame.lines frames) (ConnectionTask.echo c).2) := by
  fun_induction ConnectionTask.echo c with
  | case1 c c' hread =>
      have hemits : c.Emits [] c' := by simpa only [hread] using c.read_emits
      exact ⟨[], hemits.toFails, fun _ => hemits⟩
  | case2 c e c' hread =>
      have hemits : c.Emits [] c' := by simpa only [hread] using c.read_emits
      exact ⟨[], hemits.toFails, fun hmore => absurd hmore Bool.false_ne_true⟩
  | case3 c frame c' hread _ c'' hwrite _ ih =>
      have hfirst := echo_frame hread
      rw [hwrite] at hfirst
      obtain ⟨frames, hfails, hmore⟩ := ih
      refine ⟨[frame] ++ frames, ?_, ?_⟩
      · rw [Frame.lines_append]
        exact Connection.Emits.fails hfirst hfails
      · intro h
        rw [Frame.lines_append]
        exact Connection.Emits.trans hfirst (hmore h)
  | case4 c frame c' hread _ c'' hwrite =>
      have hfirst := echo_frame hread
      rw [hwrite] at hfirst
      exact ⟨[frame], Connection.Emits.toFails hfirst, fun _ => hfirst⟩
  | case5 c frame c' hread _ e c'' hwrite =>
      have hfirst := echo_frame hread
      rw [hwrite] at hfirst
      exact ⟨[frame], hfirst, fun hmore => absurd hmore Bool.false_ne_true⟩

theorem resumeEcho_invariant (hpeer : Peer limit stays reads c.connection)
    (hphase : c.phase = .echoing)
    (h : SessionOpen limit a .echo taken c.connection) :
    ExchangeInvariant limit stays reads (some a) taken c.resumeEcho := by
  have hopen : Upgrade.echo.IsOpen c.phase := hphase
  have hflush := c.connection.flush_result
  unfold ConnectionTask.resumeEcho
  split
  · next connection hwritten =>
    rw [hwritten] at hflush
    have hopened := h.pass hflush
    have hpeer' := hpeer.advances hflush.toAdvances
    obtain ⟨frames, hfails, hemits⟩ := echo_result connection
    simp only
    split
    · next hmore =>
      exact ⟨hpeer'.advances hfails.toAdvances, .session hopen rfl
        (hopened.emits (fun _ _ => trivial) (hemits hmore))⟩
    · obtain ⟨frames, hsent⟩ := hopened.fails (fun _ _ => trivial) hfails
      exact ⟨(hpeer'.advances hfails.toAdvances).close, .last .ended rfl hsent⟩
  · next connection hblocked =>
    rw [hblocked] at hflush
    have hopened := h.pass hflush
    exact ⟨hpeer.advances hflush.toAdvances, .session hopen rfl hopened⟩
  · next e connection herror =>
    rw [herror] at hflush
    obtain ⟨frames, hsent⟩ :=
      h.fails (by simp) (show c.connection.Fails (Frame.lines []) _ from hflush)
    exact ⟨(hpeer.advances hflush.toAdvances).close, .last .ended rfl hsent⟩

/-- The response was sent completely. -/
theorem runUpgrade_invariant (hpeer : Peer limit stays reads c.connection)
    (hfits : a.Fits limit) (hwaiting : c.connection.writer.waiting = [])
    (hline : taken ++ c.connection.output = a.line) :
    ExchangeInvariant limit stays reads (some a) taken
      (ConnectionTask.runUpgrade now buffer a.response.upgrade a.streaming c
        room).1 := by
  have hwhole : a.line <+: taken ++ c.connection.sent := by
    rw [← hline, Connection.output, hwaiting, List.append_nil]
  have hsent : ResponseSent limit a [] taken c.connection :=
    ⟨hfits, .inl rfl, hwhole, hline ▸ List.prefix_refl _⟩
  cases hupgrade : a.response.upgrade with
  | none => exact stop_invariant hpeer hsent
  | some upgrade =>
      have hhold := c.connection.hold_emits
      have hpeer' := hpeer.advances hhold.toAdvances
      have hstop (room : Room) :
          ExchangeInvariant limit stays reads (some a) taken
          (({ c with connection := c.connection.hold } : ConnectionTask).stop,
            room).1 :=
        stop_invariant hpeer' (hsent.emits hhold)
      cases hstreaming : a.streaming with
      | false => exact hstop _
      | true =>
          have hopened : SessionOpen limit a upgrade taken c.connection.hold :=
            ⟨hfits, ⟨hstreaming, hupgrade⟩, hwhole, [], by simp, hline⟩
          cases upgrade with
          | echo => exact resumeEcho_invariant hpeer' rfl hopened
          | chat user =>
              cases hbegin : Session.begin? user buffer room with
              | none =>
                  rw [ConnectionTask.runUpgrade_chat_none hbegin]
                  exact hstop room
              | some begun =>
                  rw [ConnectionTask.runUpgrade_chat hbegin]
                  exact readFrames_sessionOpen hpeer' rfl hopened

/-- The response is written to a connection without previous output. -/
theorem answer_invariant (hpeer : Peer limit stays reads c.connection)
    (hfresh : NothingSent taken c.connection) (records : List Record) :
    ExchangeInvariant limit stays reads (some a) taken
      (ConnectionTask.finishRequest now buffer a.response records a.streaming c
        room).1 := by
  have hline {connection : Connection}
      (hemits : c.connection.Emits (a.response.bytes ++ [0x0A]) connection) :
      taken ++ connection.output = a.line := by
    rw [hemits.output, ← List.append_assoc, hfresh.nothing, List.nil_append,
      DueResponse.line, Frame.lines_singleton]
  unfold ConnectionTask.finishRequest ConnectionTask.respond
    Connection.writeResponse
  rcases c.connection.write_cases a.response.bytes with
    ⟨connection, hwrite, hfits, hemits, hwaiting⟩ |
    ⟨connection, hwrite, hfits, hemits, hreading⟩ |
    ⟨e, connection, hwrite, hadvances, hsent, hwhy⟩
  · rw [hwrite]
    simp only
    rw [ConnectionTask.afterResponse_clear rfl hwaiting]
    exact runUpgrade_invariant (hpeer.advances hemits.toAdvances)
      (hpeer.limit_eq ▸ hfits) hwaiting (hline hemits)
  · rw [hwrite]
    simp only
    rw [ConnectionTask.afterResponse_blocked
      (Connection.isBlocked_of_write hwrite)]
    exact ⟨hpeer.advances hemits.toAdvances,
      .answering rfl rfl (hpeer.limit_eq ▸ hfits)
      (hpeer.rests hreading) (hemits.closed.trans hfresh.closed) (hline hemits)⟩
  · rw [hwrite]
    have hnothing : taken ++ connection.close.output = [] := by
      rw [Connection.close_output, hsent]
      exact hfresh.sent
    refine ⟨(hpeer.advances hadvances).close, ?_⟩
    by_cases hfits : a.Fits limit
    · have hleft : ¬ stays := by
        rcases hwhy with hlong | hwritable
        · exact absurd (hpeer.limit_eq ▸ hlong) (Nat.not_lt.mpr hfits)
        · exact hpeer.left hfresh.closed hwritable
      exact .cut rfl rfl hfits hleft (hnothing ▸ List.nil_prefix)
    · refine .refused rfl (fun expected hexpected => ?_) hnothing
      obtain rfl := Option.some.inj hexpected
      exact hfits

theorem resume_ended (router : Room.Router) (hphase : c.phase = .ended) :
    c.resume now router buffer room = (c, room) := by
  rw [ConnectionTask.resume, hphase]

theorem resume_calling (router : Room.Router) {due : Option Time}
    {response : Response} {records : List Record} {streaming : Bool}
    (hphase : c.phase = .calling due response records streaming) :
    c.resume now router buffer room = (c, room) := by
  rw [ConnectionTask.resume, hphase]

theorem writeEvents_idle
    (hphase : ∀ session, c.phase ≠ .chatting session true) :
    c.writeEvents room = (c, room) := by
  unfold ConnectionTask.writeEvents
  split
  · next session hsession => exact absurd hsession (hphase session)
  · rfl

theorem wake_idle (hdue : c.due? = none) :
    c.wake now buffer room = (c, room) := by
  unfold ConnectionTask.wake
  rw [if_pos]
  simp [hdue]

/-- The client reads more of the response or disconnects. -/
theorem resume_answering (router : Room.Router)
    (hpeer : Peer limit stays reads c.connection)
    (hphase : c.phase = .answering a.response.upgrade a.streaming)
    (hfits : a.Fits limit) (hrests : ¬ reads)
    (hclosed : c.connection.socket.closed = false)
    (hline : taken ++ c.connection.output = a.line) :
    ExchangeInvariant limit stays reads (some a) taken
      (c.resume now router buffer room).1 := by
  have hline' {connection : Connection}
      (hemits : c.connection.Emits [] connection) :
      taken ++ connection.output = a.line := by
    rw [hemits.output, List.append_nil, hline]
  simp only [ConnectionTask.resume, hphase, ConnectionTask.flush]
  rcases c.connection.flush_cases with ⟨connection, hflush, hemits, hwaiting⟩ |
    ⟨connection, hflush, hemits, -⟩ | ⟨e, hflush, hwritable⟩
  · simp only [hflush]
    rw [ConnectionTask.afterResponse_clear rfl hwaiting]
    exact runUpgrade_invariant (hpeer.advances hemits.toAdvances) hfits hwaiting
      (hline' hemits)
  · simp only [hflush]
    rw [ConnectionTask.afterResponse_blocked
      (Connection.isBlocked_of_flush hflush)]
    exact ⟨hpeer.advances hemits.toAdvances, .answering rfl rfl hfits hrests
      (hemits.closed.trans hclosed) (hline' hemits)⟩
  · simp only [hflush]
    refine ⟨hpeer.close, .cut rfl rfl hfits (hpeer.left hclosed hwritable) ?_⟩
    change taken ++ c.connection.close.output <+: a.line
    rw [Connection.close_output, ← hline]
    exact sent_prefix_output taken c.connection

/-- The last write of a session continues. -/
theorem resume_stopping (router : Room.Router) {due : Time}
    (hpeer : Peer limit stays reads c.connection)
    (hphase : c.phase = .stopping due)
    (hsent : ResponseSent limit a frames taken c.connection) :
    ExchangeInvariant limit stays reads (some a) taken
      (c.resume now router buffer room).1 := by
  simp only [ConnectionTask.resume, hphase, ConnectionTask.flush]
  rcases c.connection.flush_cases with ⟨connection, hflush, hemits, hwaiting⟩ |
    ⟨connection, hflush, hemits, -⟩ | ⟨e, hflush, -⟩
  · simp only [hflush, Connection.isBlocked_eq_false_iff.mpr hwaiting,
      Bool.false_eq_true, if_false]
    exact stop_invariant (hpeer.advances hemits.toAdvances) (hsent.emits hemits)
  · simp only [hflush, Connection.isBlocked_of_flush hflush, if_true]
    exact ⟨hpeer.advances hemits.toAdvances, .last (hphase ▸ .stopping due)
      rfl (hsent.emits hemits)⟩
  · simp only [hflush]
    exact stop_invariant hpeer hsent

theorem resume_invariant (router : Room.Router)
    (h : ExchangeInvariant limit stays reads expected taken c) :
    ExchangeInvariant limit stays reads expected taken
      (c.resume now router buffer room).1 := by
  have hpeer := h.peer
  cases h.answered with
  | never hphase => rwa [resume_calling router hphase]
  | refused hphase => rwa [resume_ended router hphase]
  | cut hphase => rwa [resume_ended router hphase]
  | answering hphase hexpected hfits hrests hclosed hline =>
      subst hexpected
      exact resume_answering router hpeer hphase hfits hrests hclosed hline
  | @session a upgrade hphase hexpected hopened =>
      subst hexpected
      cases upgrade with
      | echo =>
          rw [ConnectionTask.resume, show c.phase = .echoing from hphase]
          exact resumeEcho_invariant hpeer hphase hopened
      | chat user =>
          obtain ⟨session, hphase⟩ := hphase
          rw [ConnectionTask.resume, hphase]
          exact readFrames_sessionOpen hpeer hphase hopened
  | last hphase hexpected hsent =>
      subst hexpected
      generalize hlast : c.phase = phase at hphase
      cases hphase with
      | writerDropped session =>
          rw [ConnectionTask.resume, hlast]
          exact readFrames_writerDropped hpeer hlast hsent
      | stopping due => exact resume_stopping router hpeer hlast hsent
      | ended => rwa [resume_ended router hlast]

theorem writeEvents_invariant
    (h : ExchangeInvariant limit stays reads expected taken c) :
    ExchangeInvariant limit stays reads expected taken
      (c.writeEvents room).1 := by
  by_cases hsession : ∃ session, c.phase = .chatting session true
  · obtain ⟨session, hwriting⟩ := hsession
    rw [ConnectionTask.writeEvents, hwriting]
    cases h.answered with
    | @session a upgrade hphase hexpected hopened =>
        subst hexpected
        cases upgrade with
        | echo => simp [show c.phase = .echoing from hphase] at hwriting
        | chat user => exact writeQueued_invariant _ h.peer hwriting hopened
    | last hphase =>
        rw [hwriting] at hphase
        cases hphase
    | never hphase => simp [hphase] at hwriting
    | refused hphase => simp [hphase] at hwriting
    | cut hphase => simp [hphase] at hwriting
    | answering hphase => simp [hphase] at hwriting
  · rwa [writeEvents_idle fun session hphase => hsession ⟨session, hphase⟩]

theorem wake_invariant
    (h : ExchangeInvariant limit stays reads expected taken c) :
    ExchangeInvariant limit stays reads expected taken
      (c.wake now buffer room).1 := by
  have hidle (hdue : c.due? = none) :
      ExchangeInvariant limit stays reads expected taken
        (c.wake now buffer room).1 := by
    rwa [wake_idle hdue]
  rw [ConnectionTask.due?] at hidle
  -- of all stages here, only the last write of a session has a deadline
  cases h.answered with
  | never hphase => exact hidle (by rw [hphase])
  | refused hphase => exact hidle (by rw [hphase])
  | cut hphase => exact hidle (by rw [hphase])
  | answering hphase => exact hidle (by rw [hphase])
  | @session a upgrade hphase =>
      cases upgrade with
      | echo => exact hidle (by rw [show c.phase = .echoing from hphase])
      | chat user =>
          obtain ⟨session, hphase⟩ := hphase
          exact hidle (by rw [hphase])
  | last hphase hexpected hsent =>
      generalize hlast : c.phase = phase at hphase
      cases hphase with
      | writerDropped session => exact hidle (by rw [hlast])
      | ended => exact hidle (by rw [hlast])
      | stopping due =>
          subst hexpected
          simp only [ConnectionTask.wake, hlast]
          split
          · exact h
          · exact stop_invariant h.peer hsent

theorem Calling.resume (router : Room.Router) (h : Calling a taken c) :
    c.resume now router buffer room = (c, room) := by
  obtain ⟨records, hphase⟩ := h.phase
  exact resume_calling router hphase

theorem Calling.writeEvents (h : Calling a taken c) :
    c.writeEvents room = (c, room) := by
  obtain ⟨records, hphase⟩ := h.phase
  exact writeEvents_idle (by simp [hphase])

theorem Calling.wake_early (h : Calling a taken c) (hearly : now < a.due) :
    c.wake now buffer room = (c, room) := by
  obtain ⟨records, hphase⟩ := h.phase
  unfold ConnectionTask.wake
  rw [if_pos]
  simpa [ConnectionTask.due?, hphase] using hearly

theorem Calling.wake_due (h : Calling a taken c)
    (hpeer : Peer limit stays reads c.connection) (hdue : a.due ≤ now) :
    ExchangeInvariant limit stays reads (some a) taken
      (c.wake now buffer room).1 := by
  obtain ⟨records, hphase⟩ := h.phase
  have hlate : ¬ ∀ due ∈ c.due?, now < due := by
    simpa [ConnectionTask.due?, hphase] using hdue
  unfold ConnectionTask.wake
  simp only [if_neg hlate, hphase]
  exact answer_invariant hpeer h.fresh records

end

end Answering

end ChatRelay
