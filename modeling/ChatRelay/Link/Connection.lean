import ChatRelay.Link.Reader
import ChatRelay.Link.Writer
import ChatRelay.Wire.Request
import ChatRelay.Wire.Response
/-!
# Connections

A connection reads and writes frames on one socket. The two directions are
independent.
-/

namespace ChatRelay

structure Connection where
  id : Nat := 0
  socket : Socket := {}
  reader : FrameReader := {}
  writer : FrameWriter := {}
  deriving DecidableEq, Repr, Inhabited

namespace Connection

/-- A new connection with the given frame limit. -/
def ofLimit (id limit : Nat) : Connection :=
  { id, reader := { limit }, writer := { limit } }

/-- The number of received bytes that do not belong to a frame yet. -/
def unread (c : Connection) : Nat := c.reader.unread c.socket.inbox

/-- Retain the last frame that was read. -/
def hold (c : Connection) : Connection := { c with reader := c.reader.hold }

/-- Read the next frame. A stream that was reset reports one error, after all
received bytes are read. -/
def read (c : Connection) : Incoming × Connection :=
  let (incoming, reader, inbox) :=
    c.reader.next c.socket.inbox (c.socket.ended && !c.socket.reset)
  match incoming with
  | .pending =>
    if c.socket.reset then
      (.error (.io Socket.wasReset),
        { c with
          reader := { reader with failed := true }
          socket := { c.socket with inbox, reset := false } })
    else (.pending, { c with reader, socket := { c.socket with inbox } })
  | other => (other, { c with reader, socket := { c.socket with inbox } })

theorem read_frame_unread {c c' : Connection} {frame : Bytes}
    (h : c.read = (.frame frame, c')) :
    c'.unread < c.unread := by
  unfold read at h
  split at h
  next incoming reader inbox hnext =>
    split at h
    · split at h <;> simp at h
    · simp only [Prod.mk.injEq] at h
      obtain ⟨rfl, rfl⟩ := h
      exact FrameReader.next_frame_unread hnext

/-- Read until nothing more is available: the frames in order, and the error
that ended the loop, if any. -/
def readAll (c : Connection) : List Bytes × Option FrameError × Connection :=
  match h : c.read with
  | (.frame bytes, c') =>
    have := read_frame_unread h
    let (frames, error, c') := readAll c'
    (bytes :: frames, error, c')
  | (.error e, c') => ([], some e, c')
  | (.pending, c') => ([], none, c')
termination_by c.unread

/-- Decode the response in a frame. -/
def responseOf (frame : Bytes) : Except FrameError Response :=
  (Response.decode frame).mapError .malformed

def write (c : Connection) (frame : Bytes) : Outgoing × Connection :=
  let (outgoing, writer, socket) := c.writer.write c.socket frame
  (outgoing, { c with writer, socket })

theorem write_unread (c : Connection) (frame : Bytes) :
    (c.write frame).2.unread = c.unread := by
  have hflush (w : FrameWriter) (s : Socket) :
      (w.flush s).2.2.inbox = s.inbox := by
    unfold FrameWriter.flush
    split
    · rfl
    · split <;> rfl
  have hwrite : (c.writer.write c.socket frame).2.2.inbox = c.socket.inbox := by
    unfold FrameWriter.write
    split
    · rfl
    · split
      · rfl
      · exact hflush _ _
  simp only [write, unread, hwrite]

def writeRequest (c : Connection) (r : Request) : Outgoing × Connection :=
  c.write r.bytes

def writeResponse (c : Connection) (r : Response) : Outgoing × Connection :=
  c.write r.bytes

/-- Write waiting bytes to the stream. -/
def flush (c : Connection) : Outgoing × Connection :=
  let (outgoing, writer, socket) := c.writer.flush c.socket
  (outgoing, { c with writer, socket })

/-- Close the writing side. Waiting bytes are discarded. -/
def close (c : Connection) : Connection :=
  { c with socket := c.socket.close, writer := { c.writer with waiting := [] } }

/-- Whether bytes are waiting for room on the stream. -/
def isBlocked (c : Connection) : Bool := !c.writer.waiting.isEmpty

theorem isBlocked_eq_false_iff {c : Connection} :
    c.isBlocked = false ↔ c.writer.waiting = [] := by
  simp [isBlocked]

/-- Write frames in order until one cannot be written completely, and return the
frames that are left. -/
def writeAll : List Bytes → Connection → Outgoing × List Bytes × Connection
  | [], c => (.written, [], c)
  | frame :: rest, c =>
    match c.write frame with
    | (.written, c) => writeAll rest c
    | (other, c) => (other, rest, c)

end Connection
end ChatRelay
