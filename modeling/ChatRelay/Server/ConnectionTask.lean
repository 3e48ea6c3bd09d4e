import ChatRelay.Chat.Session
/-!
# Connection tasks

The task of a connection reads one request, writes the response, and may then
run an upgraded protocol. It runs until it has to wait for input, for room on
the stream, or for a timer.
-/

namespace ChatRelay

/-- The phases of a connection task. -/
inductive Phase where
  /-- Waiting for the request. -/
  | awaiting
  /-- Waiting for the handler. -/
  | calling (due : Option Time) (response : Response) (records : List Record)
    (streaming : Bool)
  /-- Writing the response. -/
  | answering (upgrade : Option Upgrade) (streaming : Bool)
  /-- Running the echo protocol. -/
  | echoing
  /-- Running a chat session. The flag tells whether its writer is alive. -/
  | chatting (session : Session) (writing : Bool)
  /-- Finishing the last write of a closed session, at most until `due`. -/
  | stopping (due : Time)
  | ended

/-- The state of the task of a connection. -/
structure ConnectionTask where
  connection : Connection
  phase : Phase := .awaiting
  context : Context := {}

namespace ConnectionTask

/-- The grace period for the last write of a session. -/
def grace : Time := 1000

/-- The response to a frame that is not a request. -/
def badRequest (e : RequestError) : Response :=
  { Response.refuse Status.badRequest "malformed request" with
    body := e.message }

/-- Close the connection and end the task. -/
def stop (c : ConnectionTask) : ConnectionTask :=
  { c with connection := c.connection.close, phase := .ended }

def isOver (c : ConnectionTask) : Bool := c.phase matches .ended

/-- End a session: free its slot, and grant its writer a grace period if a write
is pending. -/
def endSession (now : Time) (session : Session) (writing : Bool)
    (c : ConnectionTask) (room : Room) : ConnectionTask × Room :=
  let room := session.unsubscribe room
  if writing && c.connection.isBlocked then
    ({ c with phase := .stopping (now + grace) }, room)
  else (c.stop, session.dropReceiver room)

/-- End a session because reading failed. -/
def endReading (now : Time) (session : Session) (writing : Bool)
    (e : FrameError) (c : ConnectionTask) (room : Room) :
    ConnectionTask × Room :=
  endSession now session writing c (room.record [Session.endRecord e])

/-- Handle all frames that were received for a session. -/
def readFrames (now : Time) (session : Session) (writing : Bool)
    (c : ConnectionTask) (room : Room) : ConnectionTask × Room :=
  let (frames, error, connection) := c.connection.readAll
  let room := frames.foldl (Session.handleFrame session.user now) room
  let c := { c with connection }
  match error with
  | none => (c, room)
  | some e => endReading now session writing e c room

/-- Stop the writer of a session. -/
def dropWriter (session : Session) (c : ConnectionTask) (room : Room) :
    ConnectionTask × Room :=
  ({ c with
      connection := c.connection.close, phase := .chatting session false },
    session.dropReceiver room)

/-- Write at most `n` events to the client of a session. -/
def writeQueued (n : Nat) (session : Session) (c : ConnectionTask)
    (room : Room) : ConnectionTask × Room :=
  match session.write n c.connection room with
  | (.error _, connection, room) =>
    dropWriter session { c with connection } room
  | (_, connection, room) => ({ c with connection }, room)

/-- Echo received frames. Returns whether more can follow. -/
def echo (c : Connection) : Bool × Connection :=
  match hread : c.read with
  | (.pending, c') => (true, c')
  | (.error _, c') => (false, c')
  | (.frame frame, c') =>
    have := Connection.read_frame_unread hread
    match hwrite : c'.write frame with
    | (.written, c'') =>
      have : c''.unread = c'.unread := by
        have := c'.write_unread frame
        rwa [hwrite] at this
      echo c''
    | (.blocked, c'') => (true, c'')
    | (.error _, c'') => (false, c'')
termination_by c.unread

/-- Continue the echo protocol once the stream has room. -/
def resumeEcho (c : ConnectionTask) : ConnectionTask :=
  match c.connection.flush with
  | (.written, connection) =>
    let (more, connection) := echo connection
    let c := { c with connection }
    if more then c else c.stop
  | (.blocked, connection) => { c with connection }
  | (.error _, connection) => { c with connection }.stop

/-- Read the request and call the router. -/
def readRequest (now : Time) (router : Room.Router) (c : ConnectionTask)
    (room : Room) : ConnectionTask × Room :=
  match c.connection.read with
  | (.pending, connection) => ({ c with connection }, room)
  | (.error e, connection) =>
    ({ c with connection }.stop, if e.isClosed then
      room else room.count .badFrames 1)
  | (.frame frame, connection) =>
    match Request.decode frame with
    | .error e =>
      ({ c with
          connection, phase := .calling (some now) (badRequest e) [] false },
        room.count .badFrames 1)
    | .ok request =>
      let streaming := request.proto.isStreaming
      match room.call router now c.context request with
      | (some (.ready delay response records), room) =>
        ({ c with
            connection
            phase := .calling (some (now + delay)) response records streaming },
          room)
      | (some .never, room) =>
        ({ c with connection, phase := .calling none default [] streaming },
          room)
      | (some (.broken _), room) => ({ c with connection }.stop, room)
      | (none, room) => ({ c with connection }.stop, room)

def respond (response : Response) (records : List Record) (streaming : Bool)
    (c : ConnectionTask) (room : Room) : ConnectionTask × Room :=
  match c.connection.writeResponse response with
  | (.error _, connection) => ({ c with connection }.stop, room.record records)
  | (_, connection) =>
    ({ c with connection, phase := .answering response.upgrade streaming },
      room.record records)

/-- Start the upgraded protocol that a response offers to a streaming
request. -/
def beginUpgrade (buffer : Nat) (upgrade : Option Upgrade) (streaming : Bool)
    (c : ConnectionTask) (room : Room) : ConnectionTask × Room :=
  match upgrade with
  | none => (c.stop, room)
  | some upgrade =>
    let c := { c with connection := c.connection.hold }
    if ¬ streaming then (c.stop, room.record [.upgradeIgnored])
    else match upgrade with
      | .echo => ({ c with phase := .echoing }, room)
      | .chat user =>
        match Session.begin? user buffer room with
        | none => (c.stop, room)
        | some (session, room) =>
          ({ c with phase := .chatting session true }, room)

def flush (c : ConnectionTask) (room : Room) : ConnectionTask × Room :=
  match c.connection.flush with
  | (.error _, connection) => ({ c with connection }.stop, room)
  | (_, connection) => ({ c with connection }, room)

/-- Start the upgraded protocol and run it on the input received so far. -/
def runUpgrade (now : Time) (buffer : Nat) (upgrade : Option Upgrade)
    (streaming : Bool) (c : ConnectionTask) (room : Room) :
    ConnectionTask × Room :=
  let (c, room) := beginUpgrade buffer upgrade streaming c room
  match c.phase with
  | .echoing => (resumeEcho c, room)
  | .chatting session writing => readFrames now session writing c room
  | _ => (c, room)

theorem runUpgrade_chat {now : Time} {buffer : Nat} {user : Int}
    {session : Session} {room room' : Room}
    (h : Session.begin? user buffer room = some (session, room'))
    (c : ConnectionTask) :
    runUpgrade now buffer (some (.chat user)) true c room =
      readFrames now session true
        { c with
          connection := c.connection.hold, phase := .chatting session true }
        room' := by
  simp [runUpgrade, beginUpgrade, h]

theorem runUpgrade_chat_none {now : Time} {buffer : Nat} {user : Int}
    {room : Room} (h : Session.begin? user buffer room = none)
    (c : ConnectionTask) :
    runUpgrade now buffer (some (.chat user)) true c room =
      ({ c with connection := c.connection.hold }.stop, room) := by
  simp [runUpgrade, beginUpgrade, h, stop]

/-- Continue after the response, unless a part of it is still waiting. -/
def afterResponse (now : Time) (buffer : Nat) (c : ConnectionTask)
    (room : Room) : ConnectionTask × Room :=
  match c.phase with
  | .answering upgrade streaming =>
    if c.connection.isBlocked then (c, room)
    else runUpgrade now buffer upgrade streaming c room
  | _ => (c, room)

theorem afterResponse_clear {now : Time} {buffer : Nat}
    {upgrade : Option Upgrade} {streaming : Bool} {c : ConnectionTask}
    {room : Room} (hphase : c.phase = .answering upgrade streaming)
    (hclear : c.connection.writer.waiting = []) :
    afterResponse now buffer c room =
      runUpgrade now buffer upgrade streaming c room := by
  simp [afterResponse, hphase, Connection.isBlocked_eq_false_iff.mpr hclear]

theorem afterResponse_blocked {now : Time} {buffer : Nat} {c : ConnectionTask}
    {room : Room} (hblocked : c.connection.isBlocked = true) :
    afterResponse now buffer c room = (c, room) := by
  unfold afterResponse
  split
  · rw [if_pos hblocked]
  · rfl

/-- Write the response and continue. -/
def finishRequest (now : Time) (buffer : Nat) (response : Response)
    (records : List Record) (streaming : Bool) (c : ConnectionTask)
    (room : Room) : ConnectionTask × Room :=
  let (c, room) := respond response records streaming c room
  afterResponse now buffer c room

/-- Read the request, and finish it if the reply is immediate. -/
def serveRequest (now : Time) (router : Room.Router) (buffer : Nat)
    (c : ConnectionTask) (room : Room) : ConnectionTask × Room :=
  let (c, room) := readRequest now router c room
  match c.phase with
  | .calling (some due) response records streaming =>
    if due ≤ now then finishRequest now buffer response records streaming c room
    else (c, room)
  | _ => (c, room)

/-- Run the task as far as possible, except for writing events. -/
def resume (now : Time) (router : Room.Router) (buffer : Nat)
    (c : ConnectionTask) (room : Room) : ConnectionTask × Room :=
  match c.phase with
  | .awaiting => serveRequest now router buffer c room
  | .calling .. => (c, room)
  | .answering .. =>
    let (c, room) := flush c room
    afterResponse now buffer c room
  | .echoing => (resumeEcho c, room)
  | .chatting session writing => readFrames now session writing c room
  | .stopping _ =>
    let (c, room) := flush c room
    match c.phase with
    | .stopping _ =>
      if c.connection.isBlocked then (c, room) else (c.stop, room)
    | _ => (c, room)
  | .ended => (c, room)

/-- Write the events in the channel of the session. -/
def writeEvents (c : ConnectionTask) (room : Room) : ConnectionTask × Room :=
  match c.phase with
  | .chatting session true =>
    writeQueued (session.waiting room).length session c room
  | _ => (c, room)

/-- The expiry of the task's timer. -/
def due? (c : ConnectionTask) : Option Time :=
  match c.phase with
  | .calling due .. => due
  | .stopping due => some due
  | _ => none

/-- Handle the expiry of a timer. -/
def wake (now : Time) (buffer : Nat) (c : ConnectionTask) (room : Room) :
    ConnectionTask × Room :=
  if ∀ due ∈ c.due?, now < due then (c, room)
  else match c.phase with
    | .calling (some _) response records streaming =>
      finishRequest now buffer response records streaming c room
    | .stopping _ => (c.stop, room.record [.writerStalled])
    | _ => (c, room)

end ConnectionTask
end ChatRelay
