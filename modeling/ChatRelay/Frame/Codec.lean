import ChatRelay.Json.Skip
/-!
# Framing

A frame is one JSON value, or a line if the buffer does not start with a JSON
value. Separators between frames are skipped. Encoded frames are terminated by a
line feed.
-/

namespace ChatRelay

/-- The ways in which framing can fail. -/
inductive FrameError where
  /-- The stream ended between two frames. -/
  | closed
  /-- The stream ended inside a frame. -/
  | truncated
  /-- A frame exceeds the limit. -/
  | tooLarge (length limit : Nat)
  /-- A frame does not contain the expected message. -/
  | malformed (error : Json.Error)
  /-- The underlying stream failed. -/
  | io (why : String)
  deriving DecidableEq, Repr

namespace FrameError

def message : FrameError → String
  | closed => "connection closed by peer"
  | truncated => "connection closed inside a partial frame"
  | tooLarge length limit =>
    s!"frame of {length} bytes exceeds the limit of {limit} bytes"
  | malformed error => s!"malformed frame: {error.message}"
  | io why => why

/-- Whether the error is the regular end of a stream. -/
def isClosed (e : FrameError) : Bool := e = closed

end FrameError

namespace Frame

/-- The separators between frames. In contrast to JSON whitespace they include
the form feed. -/
def isSeparator (b : UInt8) : Bool :=
  b = 0x20 || b = 0x09 || b = 0x0A || b = 0x0C || b = 0x0D

/-- Drop the separators at the front. -/
def skipSeparators : Bytes → Bytes
  | [] => []
  | b :: rest => if isSeparator b then skipSeparators rest else b :: rest

/-- Whether a value with this first byte is self-delimiting. -/
def endsItself (first : UInt8) : Bool :=
  first = 0x22 || first = 0x5B || first = 0x7B

/-- The bytes that may follow a number or a literal. -/
def isDelimiter (b : UInt8) : Bool :=
  Json.isBlank b || b = 0x22 || b = 0x5B || b = 0x5D || b = 0x7B || b =
    0x7D || b = 0x2C || b = 0x3A

/-- Whether a value with the given first byte ends before the given rest. -/
def endsBefore (first : UInt8) : Bytes → Bool
  | [] => true
  | b :: _ => endsItself first || isDelimiter b

/-- The classification of the front of a buffer. -/
inductive Head where
  /-- A value of this many bytes. -/
  | value (length : Nat)
  /-- A proper prefix of a value. -/
  | unfinished
  /-- Bytes that do not start a value. -/
  | unstructured
  deriving DecidableEq, Repr

/-- Classify a buffer by running the value scanner on it. -/
def head (first : UInt8) (rest : Bytes) : Head :=
  match Json.Skip.run .start 0 (first :: rest) with
  | .error fault => if fault.cause.isEnd then .unfinished else .unstructured
  | .ok (length, behind) =>
    if endsBefore first behind && Utf8.isText ((first :: rest).take length) then
      .value length
    else .unstructured

def defaultLimit : Nat := 65536

/-- The result of one decoding attempt. -/
inductive Decoded where
  | frame (bytes : Bytes)
  /-- More bytes are needed. -/
  | wait
  | fault (error : FrameError)
  deriving DecidableEq, Repr

/-- Decode a frame at the front of a buffer, and return the remaining buffer. -/
def decode (limit : Nat) (buffer : Bytes) : Decoded × Bytes :=
  match skipSeparators buffer with
  | [] => (.wait, [])
  | first :: rest =>
    let text := first :: rest
    match head first rest with
    | .value length =>
      if limit < length then (.fault (.tooLarge length limit), text)
      else (.frame (text.take length), text.drop length)
    | .unfinished =>
      if limit < text.length then (.fault (.tooLarge text.length limit), text)
      else (.wait, text)
    | .unstructured =>
      let line := text.takeWhile (· ≠ 0x0A)
      if limit < line.length then (.fault (.tooLarge line.length limit), text)
      else match text.drop line.length with
        | [] => (.wait, text)
        | _ :: behind => (.frame line, behind)

/-- Decode a frame at the end of the stream, where a line needs no line feed and
an incomplete value is an error. -/
def decodeEnd (limit : Nat) (buffer : Bytes) : Decoded × Bytes :=
  match decode limit buffer with
  | (.wait, first :: rest) =>
    match head first rest with
    | .unstructured => (.frame (first :: rest), [])
    | _ => (.fault .truncated, first :: rest)
  | (.wait, []) => (.wait, [])
  | other => other

/-- The bytes of a frame with its terminating line feed. -/
def encode (limit : Nat) (frame : Bytes) : Except FrameError Bytes :=
  if limit < frame.length then .error (.tooLarge frame.length limit)
  else .ok (frame ++ [0x0A])

/-- The result of draining a buffer: the decoded frames, the error that stopped
the loop, if any, and the remaining bytes. -/
structure Drained where
  frames : List Bytes
  error : Option FrameError
  left : Bytes
  deriving DecidableEq, Repr

theorem skipSeparators_length (buffer : Bytes) :
    (skipSeparators buffer).length ≤ buffer.length := by
  induction buffer with
  | nil => simp [skipSeparators]
  | cons b rest ih =>
    simp only [skipSeparators]
    split
    · exact Nat.le_succ_of_le ih
    · exact Nat.le_refl _

theorem skipSeparators_cons {buffer rest : Bytes} {b : UInt8}
    (h : skipSeparators buffer = b :: rest) : isSeparator b = false := by
  induction buffer with
  | nil => simp [skipSeparators] at h
  | cons c tail ih =>
    simp only [skipSeparators] at h
    split at h
    · exact ih h
    · next hc =>
      obtain ⟨rfl, -⟩ := List.cons.inj h
      simpa using hc

theorem head_value_pos {first : UInt8} {rest : Bytes} {length : Nat}
    (h : head first rest = .value length) : 0 < length := by
  unfold head at h
  split at h
  · split at h <;> simp at h
  · next hrun =>
    split at h
    · simp only [Head.value.injEq] at h
      exact h ▸ Json.Skip.run_start_pos hrun
    · simp at h

/-- Decoding a frame shortens the buffer. -/
theorem decode_frame_length {limit : Nat} {buffer frame left : Bytes}
    (h : decode limit buffer = (.frame frame, left)) :
    left.length < buffer.length := by
  have hskip := skipSeparators_length buffer
  unfold decode at h
  split at h
  · simp at h
  · next first rest htext =>
    have hsep := skipSeparators_cons htext
    rw [htext] at hskip
    simp only [List.length_cons] at hskip
    simp only at h
    split at h
    · next length hhead =>
      have := head_value_pos hhead
      split at h
      · simp at h
      · simp only [Prod.mk.injEq] at h
        rw [← h.2]
        simp
        omega
    · split at h <;> simp at h
    · split at h
      · simp at h
      · split at h
        · simp at h
        · next _ b behind hdrop =>
          simp only [Prod.mk.injEq] at h
          rw [← h.2]
          have := congrArg List.length hdrop
          simp only [List.length_drop, List.length_cons] at this
          omega

theorem decodeEnd_frame_length {limit : Nat} {buffer frame left : Bytes}
    (h : decodeEnd limit buffer = (.frame frame, left)) :
    left.length < buffer.length := by
  unfold decodeEnd at h
  split at h
  · next first rest hdecode =>
    have : (first :: rest).length ≤ buffer.length := by
      have hskip := skipSeparators_length buffer
      unfold decode at hdecode
      split at hdecode
      · simp at hdecode
      · next f r htext =>
        rw [htext] at hskip
        simp only at hdecode
        split at hdecode
        · split at hdecode <;> simp at hdecode
        · split at hdecode
          · simp at hdecode
          · simp only [Prod.mk.injEq, true_and] at hdecode
            rw [← hdecode]
            exact hskip
        · split at hdecode
          · simp at hdecode
          · split at hdecode
            · simp only [Prod.mk.injEq, true_and] at hdecode
              rw [← hdecode]
              exact hskip
            · simp at hdecode
    simp only [List.length_cons] at this
    split at h
    · simp only [Prod.mk.injEq] at h
      rw [← h.2]
      simp
      omega
    · simp at h
  · simp at h
  · next h₁ h₂ => exact decode_frame_length h

/-- Decode until no frame is complete or an error occurs. -/
def drain (limit : Nat) (buffer : Bytes) : Drained :=
  match h : decode limit buffer with
  | (.frame frame, left) =>
    have := decode_frame_length h
    let more := drain limit left
    { more with frames := frame :: more.frames }
  | (.wait, left) => ⟨[], none, left⟩
  | (.fault error, left) => ⟨[], some error, left⟩
termination_by buffer.length

/-- Decode at the end of the stream until no frame is left or an error
occurs. -/
def drainEnd (limit : Nat) (buffer : Bytes) : Drained :=
  match h : decodeEnd limit buffer with
  | (.frame frame, left) =>
    have := decodeEnd_frame_length h
    let more := drainEnd limit left
    { more with frames := frame :: more.frames }
  | (.wait, left) => ⟨[], none, left⟩
  | (.fault error, left) => ⟨[], some error, left⟩
termination_by buffer.length

end Frame
end ChatRelay
