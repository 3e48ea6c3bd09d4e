import ChatRelay.Proofs.Frame.Feed
import ChatRelay.Link.Connection
/-!
# Sending to a reading peer

While the peer reads and no bytes are waiting, a frame within the limit is sent
at once. A frame beyond the limit is rejected as a whole.
-/

namespace ChatRelay.Connection

/-- The bytes in flight to the peer. -/
def sent (c : Connection) : Bytes := c.socket.outbox.reverse.flatten

/-- No bytes are waiting, and the peer reads. -/
structure Flowing (limit : Nat) (c : Connection) : Prop where
  limit_eq : c.writer.limit = limit
  waiting : c.writer.waiting = []
  reading : c.socket.reading = true
  writable : c.socket.isWritable = true

variable {limit : Nat} {c : Connection}

theorem Flowing.flush (h : c.Flowing limit) : c.flush = (.written, c) := by
  simp only [Connection.flush, FrameWriter.flush, h.waiting, if_true]

theorem Flowing.write (h : c.Flowing limit) {text : Bytes}
    (hfit : text.length ≤ limit) :
    ∃ c', c.write text = (.written, c') ∧ c'.Flowing limit ∧
      c'.sent = c.sent ++ (text ++ [0x0A]) := by
  have hencode : Frame.encode c.writer.limit text = .ok (text ++ [0x0A]) := by
    rw [h.limit_eq]
    exact if_neg (Nat.not_lt.mpr hfit)
  have hbacklog : ¬ (FrameWriter.backlog ≤ c.writer.waiting.length ∧
      ¬ c.socket.isWritable) := by
    simp [h.writable]
  have hroom (n : Nat) : c.socket.room n = n := if_pos h.reading
  have hwrite : c.write text = (.written, { c with
      writer := { c.writer with waiting := [] }
      socket := { c.socket with
        outbox := (text ++ [0x0A]) :: c.socket.outbox
        underway := c.socket.underway + (text ++ [0x0A]).length } }) := by
    simp only [Connection.write, FrameWriter.write, hencode, h.waiting,
      List.nil_append, FrameWriter.flush, h.writable, Socket.send, hroom,
        List.drop_length,
      List.take_length]
    simp
  refine ⟨_, hwrite, ⟨h.limit_eq, rfl, h.reading, h.writable⟩, ?_⟩
  simp [sent]

theorem Flowing.write_long (h : c.Flowing limit) {text : Bytes}
    (hlong : limit < text.length) :
    c.write text = (.error (.tooLarge text.length limit), c) := by
  have hbacklog : ¬ (FrameWriter.backlog ≤ c.writer.waiting.length ∧
      ¬ c.socket.isWritable) := by
    simp [h.writable]
  have hencode : Frame.encode c.writer.limit text =
      .error (.tooLarge text.length limit) := by
    rw [h.limit_eq]
    exact if_pos hlong
  simp only [Connection.write, FrameWriter.write, if_neg hbacklog, hencode]

/-- Frames within the limit are sent, each on its own line. -/
theorem Flowing.writeAll (h : c.Flowing limit) {texts : List Bytes}
    (hfit : ∀ text ∈ texts, text.length ≤ limit) :
    ∃ c', Connection.writeAll texts c = (.written, [], c') ∧ c'.Flowing limit ∧
      c'.sent = c.sent ++ Frame.lines texts := by
  induction texts generalizing c with
  | nil => exact ⟨c, rfl, h, by simp [Frame.lines_nil]⟩
  | cons text texts ih =>
      obtain ⟨c₁, hwrite, h₁, hsent₁⟩ := h.write (hfit text List.mem_cons_self)
      obtain ⟨c₂, hmore, h₂, hsent₂⟩ :=
        ih h₁ fun t ht => hfit t (List.mem_cons_of_mem text ht)
      refine ⟨c₂, ?_, h₂, ?_⟩
      · rw [Connection.writeAll, hwrite]
        exact hmore
      · rw [hsent₂, hsent₁, Frame.lines_cons]
        simp

/-- Writing stops at the first frame beyond the limit, after the frames before
it were sent. -/
theorem Flowing.writeAll_long (h : c.Flowing limit) {fitting rest : List Bytes}
    {long : Bytes} (hfit : ∀ text ∈ fitting, text.length ≤ limit)
    (hlong : limit < long.length) :
    ∃ c', Connection.writeAll (fitting ++ long :: rest) c =
        (.error (.tooLarge long.length limit), rest, c') ∧ c'.Flowing limit ∧
      c'.sent = c.sent ++ Frame.lines fitting := by
  induction fitting generalizing c with
  | nil =>
      refine ⟨c, ?_, h, by simp [Frame.lines_nil]⟩
      rw [List.nil_append, Connection.writeAll, h.write_long hlong]
  | cons text fitting ih =>
      obtain ⟨c₁, hwrite, h₁, hsent₁⟩ := h.write (hfit text List.mem_cons_self)
      obtain ⟨c₂, hmore, h₂, hsent₂⟩ :=
        ih h₁ fun t ht => hfit t (List.mem_cons_of_mem text ht)
      refine ⟨c₂, ?_, h₂, ?_⟩
      · rw [List.cons_append, Connection.writeAll, hwrite]
        exact hmore
      · rw [hsent₂, hsent₁, Frame.lines_cons]
        simp

end ChatRelay.Connection
