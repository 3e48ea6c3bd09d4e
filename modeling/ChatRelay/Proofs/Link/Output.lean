import ChatRelay.Proofs.Link.Sending
/-!
# Output of a connection

The effect of a write for a peer that may stop reading or close the stream:
either the whole line is accepted, and a part of it may wait for room, or the
write fails and the stream contains at most a part of the line.
-/

namespace ChatRelay.Connection

/-- The bytes sent and the bytes waiting for room. -/
def output (c : Connection) : Bytes := c.sent ++ c.writer.waiting

/-- The parts of a connection that reads and writes preserve. The bytes sent are
extended. -/
structure Advances (c c' : Connection) : Prop where
  limit : c'.writer.limit = c.writer.limit
  reading : c'.socket.reading = c.socket.reading
  gone : c'.socket.gone = c.socket.gone
  closed : c'.socket.closed = c.socket.closed
  sent : c.sent <+: c'.sent

/-- The whole text is accepted. -/
structure Emits (c : Connection) (text : Bytes) (c' : Connection) :
    Prop extends Advances c c' where
  output : c'.output = c.output ++ text

/-- The stream fails while the text is sent. -/
structure Fails (c : Connection) (text : Bytes) (c' : Connection) :
    Prop extends Advances c c' where
  part : c'.sent <+: c.output ++ text

/-- The postcondition of a write with the given result. -/
def WriteResult (c : Connection) (text : Bytes) : Outgoing → Connection → Prop
  | .error _, c' => c.Fails text c'
  | _, c' => c.Emits text c'

variable {c c' c₁ c₂ : Connection} {text more : Bytes}

theorem Advances.refl (c : Connection) : c.Advances c :=
  ⟨rfl, rfl, rfl, rfl, List.prefix_refl _⟩

theorem Advances.trans (h₁ : c.Advances c₁) (h₂ : c₁.Advances c₂) :
    c.Advances c₂ :=
  ⟨h₂.limit.trans h₁.limit, h₂.reading.trans h₁.reading, h₂.gone.trans h₁.gone,
    h₂.closed.trans h₁.closed, h₁.sent.trans h₂.sent⟩

theorem Emits.trans (h₁ : c.Emits text c₁) (h₂ : c₁.Emits more c₂) :
    c.Emits (text ++ more) c₂ := by
  refine ⟨h₁.toAdvances.trans h₂.toAdvances, ?_⟩
  rw [h₂.output, h₁.output, List.append_assoc]

theorem Emits.fails (h₁ : c.Emits text c₁) (h₂ : c₁.Fails more c₂) :
    c.Fails (text ++ more) c₂ := by
  refine ⟨h₁.toAdvances.trans h₂.toAdvances, ?_⟩
  rw [← List.append_assoc, ← h₁.output]
  exact h₂.part

theorem Emits.result {outgoing : Outgoing} (h₁ : c.Emits text c₁)
    (h₂ : c₁.WriteResult more outgoing c₂) :
    c.WriteResult (text ++ more) outgoing c₂ := by
  cases outgoing with
  | written => exact Emits.trans h₁ h₂
  | blocked => exact Emits.trans h₁ h₂
  | error e => exact Emits.fails h₁ h₂

theorem sent_prefix_output (c : Connection) : c.sent <+: c.output :=
  List.prefix_append _ _

theorem Emits.toFails (h : c.Emits text c') : c.Fails text c' :=
  ⟨h.toAdvances, h.output ▸ c'.sent_prefix_output⟩

/-- Closing discards the waiting bytes only. -/
theorem close_output (c : Connection) : c.close.output = c.sent :=
  List.append_nil _

/-- The bytes sent are extended, and the output is extended by at most a prefix
of the text. -/
structure Truncates (c : Connection) (text : Bytes)
    (c' : Connection) : Prop where
  sent : c.sent <+: c'.sent
  output : c'.output <+: c.output ++ text

theorem Emits.truncates (h : c.Emits text c') : c.Truncates text c' :=
  ⟨h.sent, h.output ▸ List.prefix_refl _⟩

theorem Fails.close (h : c.Fails text c') : c.Truncates text c'.close :=
  ⟨h.sent, c'.close_output ▸ h.part⟩

theorem Emits.close (h : c.Emits text c') : c.Truncates text c'.close :=
  h.toFails.close

theorem emits_nil (c : Connection) : c.Emits [] c :=
  ⟨.refl c, (List.append_nil _).symm⟩

theorem hold_emits (c : Connection) : c.Emits [] c.hold :=
  ⟨⟨rfl, rfl, rfl, rfl, List.prefix_refl _⟩, (List.append_nil _).symm⟩

theorem read_emits (c : Connection) : c.Emits [] c.read.2 := by
  have hnothing (reader : FrameReader) (inbox : Bytes) (reset : Bool) :
      c.Emits [] { c with reader, socket := { c.socket with inbox, reset } } :=
    ⟨⟨rfl, rfl, rfl, rfl, List.prefix_refl _⟩, (List.append_nil _).symm⟩
  unfold read
  split
  split
  · split <;> exact hnothing _ _ _
  · exact hnothing _ _ _

theorem readAll_emits (c : Connection) : c.Emits [] c.readAll.2.2 := by
  fun_induction readAll c with
  | case1 c bytes c' hread _ _ _ _ hmore ih =>
      have hfirst : c.Emits [] c' := by simpa only [hread] using c.read_emits
      rw [hmore] at ih
      exact hfirst.trans ih
  | case2 c e c' hread =>
      have hlast := c.read_emits
      rwa [hread] at hlast
  | case3 c c' hread =>
      have hlast := c.read_emits
      rwa [hread] at hlast

theorem flush_cases (c : Connection) :
    (∃ c', c.flush = (.written, c') ∧ c.Emits [] c' ∧ c'.writer.waiting = []) ∨
      (∃ c', c.flush = (.blocked, c') ∧ c.Emits [] c' ∧
        c.socket.reading = false) ∨
      ∃ e, c.flush = (.error e, c) ∧ c.socket.isWritable = false := by
  by_cases hwaiting : c.writer.waiting = []
  · refine .inl ⟨c, ?_, emits_nil c, hwaiting⟩
    simp only [flush, FrameWriter.flush, hwaiting, if_true]
  cases hwritable : c.socket.isWritable with
  | false =>
      refine .inr (.inr ⟨.io Socket.broken, ?_, rfl⟩)
      simp [flush, FrameWriter.flush, hwaiting, hwritable]
  | true =>
      have hflush : c.flush =
          (if (c.socket.send c.writer.waiting).1 = [] then .written
            else .blocked, { c with
              writer :=
                { c.writer with waiting := (c.socket.send c.writer.waiting).1 }
              socket := (c.socket.send c.writer.waiting).2 }) := by
        simp [flush, FrameWriter.flush, hwaiting, hwritable]
      have hemits : c.Emits [] { c with
          writer :=
            { c.writer with waiting := (c.socket.send c.writer.waiting).1 }
          socket := (c.socket.send c.writer.waiting).2 } := by
        refine ⟨⟨rfl, rfl, rfl, rfl, ?_⟩, ?_⟩
        · simp [sent, Socket.send]
        · simp [output, sent, Socket.send]
      rw [hflush]
      by_cases hleft : (c.socket.send c.writer.waiting).1 = []
      · exact .inl ⟨_, by rw [if_pos hleft], hemits, hleft⟩
      · refine .inr (.inl ⟨_, by rw [if_neg hleft], hemits, ?_⟩)
        cases hreading : c.socket.reading with
        | false => rfl
        | true => simp [Socket.send, Socket.room, hreading] at hleft

theorem flush_result (c : Connection) :
    c.WriteResult [] c.flush.1 c.flush.2 := by
  rcases c.flush_cases
    with ⟨c', hflush, hemits, -⟩ | ⟨c', hflush, hemits, -⟩ | ⟨e, hflush, -⟩
  · rw [hflush]
    exact hemits
  · rw [hflush]
    exact hemits
  · rw [hflush]
    refine ⟨.refl c, ?_⟩
    rw [List.append_nil]
    exact c.sent_prefix_output

theorem write_cases (c : Connection) (frame : Bytes) :
    (∃ c', c.write frame = (.written, c') ∧ frame.length ≤ c.writer.limit ∧
        c.Emits (frame ++ [0x0A]) c' ∧ c'.writer.waiting = []) ∨
      (∃ c', c.write frame = (.blocked, c') ∧ frame.length ≤ c.writer.limit ∧
        c.Emits (frame ++ [0x0A]) c' ∧ c.socket.reading = false) ∨
      ∃ e c', c.write frame = (.error e, c') ∧ c.Advances c' ∧
        c'.sent = c.sent ∧
        (c.writer.limit < frame.length ∨ c.socket.isWritable = false) := by
  by_cases hbacklog : FrameWriter.backlog ≤ c.writer.waiting.length ∧
  ¬ c.socket.isWritable
  · refine .inr (.inr ⟨.io Socket.broken, c, ?_, .refl c, rfl,
      .inr (by simpa using hbacklog.2)⟩)
    simp only [write, FrameWriter.write, if_pos hbacklog]
  by_cases hlong : c.writer.limit < frame.length
  · refine .inr (.inr
      ⟨.tooLarge frame.length c.writer.limit, c, ?_, .refl c, rfl, .inl hlong⟩)
    simp only [write, FrameWriter.write, if_neg hbacklog, Frame.encode,
      if_pos hlong]
  -- a frame that fits is put behind what waits, and then all of it is flushed
  let loaded : Connection :=
    { c with
      writer := { c.writer with
        waiting := c.writer.waiting ++ (frame ++ [0x0A]) } }
  have hwrite : c.write frame = loaded.flush := by
    simp only [write, FrameWriter.write, if_neg hbacklog, Frame.encode,
      if_neg hlong]
    rfl
  have hloaded : c.Emits (frame ++ [0x0A]) loaded := by
    refine ⟨⟨rfl, rfl, rfl, rfl, List.prefix_refl _⟩, ?_⟩
    simp [output, sent, loaded]
  have hfit : frame.length ≤ c.writer.limit := Nat.not_lt.mp hlong
  rw [hwrite]
  rcases loaded.flush_cases
    with ⟨c', hflush, hemits, hwaiting⟩ | ⟨c', hflush, hemits, hreading⟩ |
    ⟨e, hflush, hwritable⟩
  · refine .inl ⟨c', hflush, hfit, ?_, hwaiting⟩
    simpa using hloaded.trans hemits
  · refine .inr (.inl ⟨c', hflush, hfit, ?_, hreading⟩)
    simpa using hloaded.trans hemits
  · exact .inr
      (.inr ⟨e, loaded, hflush, hloaded.toAdvances, rfl, .inr hwritable⟩)

theorem waiting_of_flush_blocked {w : FrameWriter} {s : Socket}
    (h : (w.flush s).1 = .blocked) : (w.flush s).2.1.waiting ≠ [] := by
  unfold FrameWriter.flush at h ⊢
  split at h
  · exact nomatch h
  split at h
  · exact nomatch h
  · simpa [*] using h

theorem waiting_of_write_blocked {w : FrameWriter} {s : Socket} {frame : Bytes}
    (h : (w.write s frame).1 = .blocked) :
    (w.write s frame).2.1.waiting ≠ [] := by
  unfold FrameWriter.write at h ⊢
  split at h
  · exact nomatch h
  next hfree =>
  split at h
  · exact nomatch h
  next bytes _ =>
  simp only [if_neg hfree]
  exact waiting_of_flush_blocked h

theorem isBlocked_of_flush {c c' : Connection} (h : c.flush = (.blocked, c')) :
    c'.isBlocked = true := by
  have hblocked : c.flush.1 = .blocked := congrArg Prod.fst h
  have hwaiting : c.flush.2.writer.waiting ≠ [] :=
    waiting_of_flush_blocked hblocked
  rw [h] at hwaiting
  simpa [isBlocked] using hwaiting

theorem isBlocked_of_write {c c' : Connection} {frame : Bytes}
    (h : c.write frame = (.blocked, c')) : c'.isBlocked = true := by
  have hblocked : (c.write frame).1 = .blocked := congrArg Prod.fst h
  have hwaiting : (c.write frame).2.writer.waiting ≠ [] :=
    waiting_of_write_blocked hblocked
  rw [h] at hwaiting
  simpa [isBlocked] using hwaiting

theorem write_result (c : Connection) (frame : Bytes) :
    c.WriteResult (frame ++ [0x0A]) (c.write frame).1 (c.write frame).2 := by
  rcases c.write_cases frame
    with ⟨c', hwrite, -, hemits, -⟩ | ⟨c', hwrite, -, hemits, -⟩ |
    ⟨e, c', hwrite, hadvances, hsent, -⟩
  · rw [hwrite]
    exact hemits
  · rw [hwrite]
    exact hemits
  · rw [hwrite]
    refine ⟨hadvances, ?_⟩
    rw [hsent]
    exact c.sent_prefix_output.trans (List.prefix_append _ _)

/-- A write of several frames accepts an initial part of them. -/
theorem writeAll_result (texts : List Bytes) (c : Connection) :
    ∃ done, done ⊆ texts ∧
      c.WriteResult (Frame.lines done) (writeAll texts c).1
        (writeAll texts c).2.2 := by
  induction texts generalizing c with
  | nil => exact ⟨[], List.Subset.refl [], emits_nil c⟩
  | cons text texts ih =>
      have hfirst := c.write_result text
      generalize hwrite : c.write text = written at hfirst
      obtain ⟨outgoing, c'⟩ := written
      simp only [writeAll, hwrite]
      cases outgoing with
      | written =>
          obtain ⟨done, hdone, hmore⟩ := ih c'
          refine ⟨text :: done, List.cons_subset_cons text hdone, ?_⟩
          rw [Frame.lines_cons, List.append_cons]
          exact Emits.result hfirst hmore
      | blocked => exact ⟨[text], by simp, Frame.lines_singleton text ▸ hfirst⟩
      | error e => exact ⟨[text], by simp, Frame.lines_singleton text ▸ hfirst⟩

end ChatRelay.Connection
