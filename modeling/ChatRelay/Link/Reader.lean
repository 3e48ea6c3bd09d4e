import ChatRelay.Frame.Codec
import ChatRelay.Link.Socket
import ChatRelay.Link.Storage
/-!
# Reading frames

A frame reader fills its storage from a stream and decodes frames. An error is
reported once. The next read then reports the end of the stream, and reading
continues when more bytes have arrived.
-/

namespace ChatRelay

structure FrameReader where
  /-- The greatest accepted frame length. -/
  limit : Nat := Frame.defaultLimit
  /-- Received bytes that do not belong to a frame yet. -/
  buffer : Bytes := []
  /-- The storage of the buffered bytes. -/
  storage : Storage := {}
  /-- Whether the buffer may contain a complete frame. -/
  readable : Bool := false
  /-- Whether the stream was at its end when last polled. -/
  atEnd : Bool := false
  /-- Whether the last result was an error. -/
  failed : Bool := false
  deriving DecidableEq, Repr, Inhabited

inductive Incoming where
  | frame (bytes : Bytes)
  | error (e : FrameError)
  | pending
  deriving DecidableEq, Repr

namespace FrameReader

/-- The measure on which `next` terminates. -/
def distance (r : FrameReader) (inbox : Bytes) : Nat :=
  2 * inbox.length + if r.atEnd then 0 else 1

theorem distance_congr {r r' : FrameReader} (h : r.atEnd = r'.atEnd)
    (inbox : Bytes) :
    r.distance inbox = r'.distance inbox := by
  unfold distance
  rw [h]

/-- Decode a frame from the buffer, if it may contain one. -/
def decodeNext (r : FrameReader) : Frame.Decoded × Bytes :=
  if ¬ r.readable then (.wait, r.buffer)
  else if r.atEnd then Frame.decodeEnd r.limit r.buffer
  else Frame.decode r.limit r.buffer

/-- Replace the buffer by the bytes that stay after decoding. -/
def keep (r : FrameReader) (buffer : Bytes) : FrameReader :=
  { r with
    buffer, storage := r.storage.consume (r.buffer.length - buffer.length) }

/-- Reserve room for at least one byte. -/
def makeRoom (r : FrameReader) : FrameReader :=
  { r with storage := r.storage.makeRoom r.buffer.length }

/-- The number of bytes that can be received at once. -/
def room (r : FrameReader) : Nat := r.storage.room r.buffer.length

/-- Receive at most `room` bytes, or observe the end of the stream. Returns the
bytes that remain in the stream, or `none` if no bytes are available and the
stream has not ended. -/
def refill? (most : Nat) (r : FrameReader) (inbox : Bytes) (ended : Bool) :
    Option (FrameReader × Bytes) :=
  if inbox ≠ [] then
    some ({ r with
        buffer := r.buffer ++ inbox.take most
        atEnd := false
        readable := true },
      inbox.drop most)
  else if ended ∧ ¬ r.atEnd then
    some ({ r with atEnd := true, readable := true }, [])
  else none

theorem refill?_distance {most : Nat} {r r' : FrameReader}
    {inbox inbox' : Bytes} {ended : Bool} (hmost : 0 < most)
    (h : refill? most r inbox ended = some (r', inbox')) :
    r'.distance inbox' < r.distance inbox := by
  unfold refill? at h
  split at h
  · next hne =>
    have hpos : 0 < inbox.length := List.length_pos_iff.mpr hne
    simp only [Option.some.injEq, Prod.mk.injEq] at h
    obtain ⟨rfl, rfl⟩ := h
    simp only [distance, List.length_drop]
    split <;> simp <;> omega
  · split at h
    · next hne hend =>
      simp only [Option.some.injEq, Prod.mk.injEq] at h
      obtain ⟨rfl, rfl⟩ := h
      simp [distance, hend.2]
    · simp at h

theorem room_makeRoom (r : FrameReader) : 0 < r.makeRoom.room :=
  r.storage.room_makeRoom r.buffer.length

/-- Retain the storage of the last frame. -/
def hold (r : FrameReader) : FrameReader :=
  { r with storage := { r.storage with kept := true } }

/-- Read the next frame, and return the bytes that remain in the stream. -/
def next (r : FrameReader) (inbox : Bytes) (ended : Bool) :
    Incoming × FrameReader × Bytes :=
  if r.failed then
    (.error .closed, { r with failed := false, readable := false }, inbox)
  else
    match r.decodeNext with
    | (.frame bytes, buffer) => (.frame bytes, r.keep buffer, inbox)
    | (.fault e, buffer) =>
      (.error e, { r.keep buffer with failed := true }, inbox)
    | (.wait, buffer) =>
      let waiting := { r.keep buffer with readable := false }
      if r.readable ∧ r.atEnd then (.error .closed, waiting, inbox)
      else
        match h : refill? waiting.makeRoom.room waiting.makeRoom inbox
            ended with
        | some (r', inbox') =>
          have : r'.distance inbox' < r.distance inbox := by
            have hless := refill?_distance waiting.room_makeRoom h
            rwa [distance_congr
              (show waiting.makeRoom.atEnd = r.atEnd from rfl)] at hless
          next r' inbox' ended
        | none =>
          (if ended then .error .closed else .pending, waiting.makeRoom, inbox)
termination_by r.distance inbox

/-- The number of received bytes that do not belong to a frame yet. -/
def unread (r : FrameReader) (inbox : Bytes) : Nat :=
  r.buffer.length + inbox.length

theorem decode_wait_length {limit : Nat} {buffer left : Bytes}
    (h : Frame.decode limit buffer = (.wait, left)) :
    left.length ≤ buffer.length := by
  have hskip := Frame.skipSeparators_length buffer
  unfold Frame.decode at h
  split at h
  · simp only [Prod.mk.injEq, true_and] at h
    simp [← h]
  · next first rest htext =>
    rw [htext] at hskip
    simp only at h
    split at h
    · split at h <;> simp at h
    · split at h
      · simp at h
      · simp only [Prod.mk.injEq, true_and] at h
        exact h ▸ hskip
    · split at h
      · simp at h
      · split at h
        · simp only [Prod.mk.injEq, true_and] at h
          exact h ▸ hskip
        · simp at h

theorem decodeNext_frame_length {r : FrameReader} {frame left : Bytes}
    (h : r.decodeNext = (.frame frame, left)) :
    left.length < r.buffer.length := by
  unfold decodeNext at h
  split at h
  · simp at h
  · split at h
    · exact Frame.decodeEnd_frame_length h
    · exact Frame.decode_frame_length h

theorem decodeNext_wait_length {r : FrameReader} {left : Bytes}
    (hend : ¬ (r.readable ∧ r.atEnd)) (h : r.decodeNext = (.wait, left)) :
    left.length ≤ r.buffer.length := by
  unfold decodeNext at h
  split at h
  · simp only [Prod.mk.injEq, true_and] at h
    simp [← h]
  · next hr =>
    split at h
    · next ha => exact absurd ⟨by simpa using hr, ha⟩ hend
    · exact decode_wait_length h

theorem refill?_unread {most : Nat} {r r' : FrameReader} {inbox inbox' : Bytes}
    {ended : Bool} (h : refill? most r inbox ended = some (r', inbox')) :
    r'.unread inbox' ≤ r.unread inbox := by
  unfold refill? at h
  split at h
  · simp only [Option.some.injEq, Prod.mk.injEq] at h
    obtain ⟨rfl, rfl⟩ := h
    simp only [unread, List.length_append, List.length_take, List.length_drop]
    omega
  · split at h
    · next hne _ =>
      simp only [Option.some.injEq, Prod.mk.injEq] at h
      obtain ⟨rfl, rfl⟩ := h
      simp [unread]
    · simp at h

/-- Reading a frame decreases the number of unread bytes. -/
theorem next_frame_unread {r r' : FrameReader} {inbox inbox' frame : Bytes}
    {ended : Bool} (h : r.next inbox ended = (.frame frame, r', inbox')) :
    r'.unread inbox' < r.unread inbox := by
  fun_induction next r inbox ended with
  | case1 => simp at h
  | case2 r inbox _ bytes buffer hlook =>
    have := decodeNext_frame_length hlook
    simp only [Prod.mk.injEq] at h
    obtain ⟨-, rfl, rfl⟩ := h
    simp only [unread, keep]
    omega
  | case3 => simp at h
  | case4 => simp at h
  | case5 r inbox _ buffer hlook waiting hend r₁ inbox₁ hrefill _ ih =>
    have hwait := decodeNext_wait_length hend hlook
    have hmore := refill?_unread hrefill
    have := ih h
    simp only [unread, makeRoom, waiting, keep] at *
    omega
  | case6 =>
    simp only [Prod.mk.injEq] at h
    split at h <;> simp at h

end FrameReader
end ChatRelay
