import ChatRelay.Frame.Codec
import ChatRelay.Link.Socket
/-!
# Writing frames

A frame writer encodes frames onto a stream. Bytes for which the stream has no
room wait in the writer.
-/

namespace ChatRelay

structure FrameWriter where
  /-- The greatest accepted frame length. -/
  limit : Nat := Frame.defaultLimit
  /-- The encoded bytes that were not sent yet. -/
  waiting : Bytes := []
  deriving DecidableEq, Repr, Inhabited

inductive Outgoing where
  | written
  /-- The stream has no room. -/
  | blocked
  | error (e : FrameError)
  deriving DecidableEq, Repr

namespace FrameWriter

/-- The number of waiting bytes from which on a write flushes first. -/
def backlog : Nat := 8192

def flush (w : FrameWriter) (s : Socket) : Outgoing × FrameWriter × Socket :=
  if w.waiting = [] then (.written, w, s)
  else if ¬ s.isWritable then (.error (.io Socket.broken), w, s)
  else
    let (waiting, s) := s.send w.waiting
    (if waiting = [] then .written else .blocked, { w with waiting }, s)

/-- Write a frame. Nothing of it is written if the backlog cannot be sent. -/
def write (w : FrameWriter) (s : Socket) (frame : Bytes) :
    Outgoing × FrameWriter × Socket :=
  if backlog ≤ w.waiting.length ∧ ¬ s.isWritable then
    (.error (.io Socket.broken), w, s)
  else match Frame.encode w.limit frame with
    | .error e => (.error e, w, s)
    | .ok bytes => flush { w with waiting := w.waiting ++ bytes } s

end FrameWriter
end ChatRelay
