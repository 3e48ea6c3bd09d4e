import ChatRelay.Proofs.Bus.BusRun
import ChatRelay.Chat.Session
/-!
# Writing events

A session writes any number of waiting events at once. This is the same as
writing them one after another.
-/

namespace ChatRelay

namespace Bus

variable {α : Type}

theorem modify_id (bus : Bus α) (n : Nat) : bus.modify n id = bus := by
  rw [modify, List.modify_id]

theorem modify_modify (bus : Bus α) (n : Nat) (f g : Channel α → Channel α) :
    (bus.modify n f).modify n g = bus.modify n (g ∘ f) := by
  simp only [modify, List.modify_modify_eq]

end Bus

namespace Connection

variable {c : Connection}

theorem flush_clear (h : c.writer.waiting = []) : c.flush = (.written, c) := by
  simp [flush, FrameWriter.flush, h]

theorem writeAll_left (texts : List Bytes) (c : Connection) :
    (c.writeAll texts).2.1.length ≤ texts.length := by
  induction texts generalizing c with
  | nil => exact Nat.le_refl _
  | cons text texts ih =>
      rw [writeAll]
      split
      · exact Nat.le_succ_of_le (ih _)
      · exact Nat.le_succ _

end Connection

namespace Session

variable {session : Session} {c c' : Connection} {room : Room} {event : Event}
  {queue : List Event}

/-- The room after `sent` events were taken from the channel of a session. -/
theorem write_room (n : Nat) (session : Session) (c : Connection)
    (room : Room) :
    ∃ f, (session.write n c room).2.2 =
      { room with bus := room.bus.modify session.subscription.channel f } := by
  unfold write
  split
  · exact ⟨_, rfl⟩
  · exact ⟨id, by rw [Bus.modify_id]⟩

theorem modify_waiting (h : session.waiting room = queue) :
    room.bus.modify session.subscription.channel
      (fun channel => { channel with queue }) = room.bus := by
  have hchannels : room.bus.channels.modify session.subscription.channel
      (fun channel => { channel with queue }) = room.bus.channels := by
    apply List.ext_getElem?
    intro j
    rw [List.getElem?_modify]
    split
    · next heq =>
      rw [← heq]
      unfold waiting at h
      cases hchannel : room.bus.channels[session.subscription.channel]? with
      | none => rfl
      | some channel =>
          rw [hchannel, Option.elim_some] at h
          exact congrArg some (by rw [← h])
    · exact id_map _
  rw [Bus.modify, hchannels]

/-- The waiting events when the first of them is taken. -/
theorem waiting_take (h : session.waiting room = event :: queue) :
    let bus :=
      room.bus.modify session.subscription.channel fun channel =>
        { channel with queue }
    session.waiting { room with bus } = queue := by
  unfold waiting at h ⊢
  cases hchannel : room.bus.channels[session.subscription.channel]? with
  | none => simp [hchannel] at h
  | some channel => simp [Bus.modify, hchannel]

/-- Writing no event flushes the connection. -/
theorem write_zero (session : Session) (c : Connection) (room : Room) :
    session.write 0 c room = (c.flush.1, c.flush.2, room) := by
  unfold write
  split
  · next c' hflush =>
    simp only [hflush, List.take_zero, List.map_nil, Connection.writeAll,
      List.length_nil, Nat.sub_self, List.drop_zero, modify_waiting rfl]
  · next outgoing c' _ hflush => rw [hflush]

theorem write_nothing (n : Nat) (hclear : c.writer.waiting = [])
    (h : session.waiting room = []) :
    session.write n c room = (.written, c, room) := by
  simp only [write, Connection.flush_clear hclear, h, List.take_nil,
    List.map_nil, Connection.writeAll, List.drop_nil, modify_waiting h]

/-- If the first event is written whole, the others are written behind it. -/
theorem write_event (n : Nat) (hclear : c.writer.waiting = [])
    (h : session.waiting room = event :: queue)
    (hwrite : c.write event.bytes = (.written, c'))
    (hclear' : c'.writer.waiting = []) :
    let bus :=
      room.bus.modify session.subscription.channel fun channel =>
        { channel with queue }
    session.write (n + 1) c room = session.write n c' { room with bus } := by
  intro bus
  have hleft := Connection.writeAll_left ((queue.take n).map Event.bytes) c'
  rw [List.length_map] at hleft
  have hdrop : (event :: queue).drop ((event :: queue.take n).length -
        (c'.writeAll ((queue.take n).map Event.bytes)).2.1.length) =
      queue.drop ((queue.take n).length -
        (c'.writeAll ((queue.take n).map Event.bytes)).2.1.length) := by
    rw [List.length_cons, Nat.succ_sub hleft, List.drop_succ_cons]
  have hrest : session.waiting { room with bus } = queue := waiting_take h
  simp only [write, Connection.flush_clear hclear,
    Connection.flush_clear hclear', h, hrest, List.take_succ_cons,
      List.map_cons, Connection.writeAll, hwrite, hdrop, bus,
    Bus.modify_modify]
  rfl

/-- If the first event is not written whole, it is taken from the channel, and
the others wait. -/
theorem write_halt (n : Nat) {outgoing : Outgoing}
    (hclear : c.writer.waiting = []) (h : session.waiting room = event :: queue)
    (hwrite : c.write event.bytes = (outgoing, c'))
    (hhalt : outgoing ≠ .written) :
    let bus :=
      room.bus.modify session.subscription.channel fun channel =>
        { channel with queue }
    session.write (n + 1) c room = (outgoing, c', { room with bus }) := by
  have hdrop : (event :: queue).drop ((event :: queue.take n).length -
      ((queue.take n).map Event.bytes).length) = queue := by
    rw [List.length_cons, List.length_map, Nat.add_sub_cancel_left,
      List.drop_succ_cons, List.drop_zero]
  have hall : c.writeAll ((event :: queue.take n).map Event.bytes) =
      (outgoing, (queue.take n).map Event.bytes, c') := by
    rw [List.map_cons, Connection.writeAll, hwrite]
    cases outgoing with
    | written => exact absurd rfl hhalt
    | blocked => rfl
    | error e => rfl
  simp only [write, Connection.flush_clear hclear, h, List.take_succ_cons,
    hall, hdrop]

theorem write_one (hclear : c.writer.waiting = [])
    (h : session.waiting room = event :: queue) :
    let bus :=
      room.bus.modify session.subscription.channel fun channel =>
        { channel with queue }
    session.write 1 c room =
      ((c.write event.bytes).1, (c.write event.bytes).2,
        { room with bus }) := by
  intro bus
  have hdrop : (event :: queue).drop 1 = queue := rfl
  simp only [write, Connection.flush_clear hclear, h, List.take_succ_cons,
    List.take_zero, List.map_cons, List.map_nil, Connection.writeAll,
      List.length_singleton]
  generalize c.write event.bytes = written
  obtain ⟨outgoing, c'⟩ := written
  cases outgoing with
  | written => simp only [List.length_nil, Nat.sub_zero, hdrop, bus]
  | blocked => simp only [List.length_nil, Nat.sub_zero, hdrop, bus]
  | error e => simp only [List.length_nil, Nat.sub_zero, hdrop, bus]

end Session

end ChatRelay
