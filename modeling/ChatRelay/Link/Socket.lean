import ChatRelay.Text.Utf8
/-!
# Sockets

The local end of a byte stream, with the bytes in flight in both directions. The
number of bytes in flight to a peer that does not read is bounded.
-/

namespace ChatRelay

structure Socket where
  /-- Received bytes that were not read yet. -/
  inbox : Bytes := []
  /-- Whether the peer closed its sending side. -/
  ended : Bool := false
  /-- The bytes in flight to the peer, in chunks, the newest first. -/
  outbox : List Bytes := []
  /-- The number of bytes in flight to the peer. -/
  underway : Nat := 0
  /-- Whether the peer reads. -/
  reading : Bool := true
  /-- Whether the local sending side is closed. -/
  closed : Bool := false
  /-- Whether the peer closed the stream. -/
  gone : Bool := false
  /-- Whether the peer closed the stream before it read everything. -/
  reset : Bool := false
  deriving DecidableEq, Repr, Inhabited

namespace Socket

/-- The greatest number of bytes in flight to a peer that does not read. -/
def capacity : Nat := 212992

/-- Receive bytes from the peer. -/
def deliver (s : Socket) (bytes : Bytes) : Socket :=
  if s.ended then s else { s with inbox := s.inbox ++ bytes }

/-- The peer closes its sending side. -/
def finish (s : Socket) : Socket := { s with ended := true }

def leave (s : Socket) : Socket :=
  { s with
    ended := true, gone := true, outbox := [], underway := 0
    reset := 0 < s.underway }

/-- The error of a write to a closed stream. -/
def broken : String := "Broken pipe (os error 32)"

/-- The error of a read from a stream that was reset. -/
def wasReset : String := "Connection reset by peer (os error 104)"

def isWritable (s : Socket) : Bool := !s.closed && !s.gone

/-- The number of bytes that can be sent. -/
def room (s : Socket) (wanted : Nat) : Nat :=
  if s.reading then wanted else min wanted (capacity - s.underway)

/-- Send as many bytes as possible, and return the rest. -/
def send (s : Socket) (bytes : Bytes) : Bytes × Socket :=
  let n := s.room bytes.length
  (bytes.drop n,
    { s with outbox := bytes.take n :: s.outbox, underway := s.underway + n })

/-- Close the local sending side. -/
def close (s : Socket) : Socket := { s with closed := true }

/-- The peer takes the bytes in flight, if it reads. Returns these bytes. -/
def collect (s : Socket) : Bytes × Socket :=
  if s.reading then
    (s.outbox.reverse.flatten, { s with outbox := [], underway := 0 })
  else ([], s)

end Socket
end ChatRelay
