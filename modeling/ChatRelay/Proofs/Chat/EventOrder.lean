import ChatRelay.Proofs.Chat.SessionSlots
import ChatRelay.Proofs.Json.Written
import Mathlib.Data.List.Sigma
/-!
# The order of events

The client of a session receives the welcome and then the first of the events
that its channel accepted. Channels accept events in the order of publishing, so
any two clients receive their common events in one order.
-/

namespace ChatRelay

theorem Response.oneLine (r : Response) : 0x0A ∉ r.bytes :=
  (Json.Skip.run_bytes_object _).1

theorem Event.oneLine (e : Event) : 0x0A ∉ e.bytes :=
  (Json.Skip.run_bytes_object _).1

section

variable {α : Type} [BEq α] [LawfulBEq α] {l part other : List α}

/-- Filtering a list by membership in a sublist gives the sublist. -/
theorem filter_mem_of_part (hl : l.Nodup) (hpart : part.Sublist l) :
    l.filter (· ∈ part) = part := by
  induction hpart with
  | slnil => rfl
  | @cons part l a hpart ih =>
      obtain ⟨ha, hl⟩ := List.nodup_cons.mp hl
      have hnot : a ∉ part := fun hmem => ha (hpart.subset hmem)
      rw [List.filter_cons_of_neg (by simpa using hnot), ih hl]
  | @cons_cons part l a hpart ih =>
      obtain ⟨ha, hl⟩ := List.nodup_cons.mp hl
      have hrest : l.filter (· ∈ a :: part) = l.filter (· ∈ part) := by
        apply List.filter_congr
        intro b hb
        have hne : b ≠ a := fun heq => ha (heq ▸ hb)
        simp [hne]
      rw [List.filter_cons_of_pos (by simp), hrest, ih hl]

/-- The common elements of two sublists are in the same order in both. -/
theorem filter_mem_comm (hl : l.Nodup) (hpart : part.Sublist l)
    (hother : other.Sublist l) :
    part.filter (· ∈ other) = other.filter (· ∈ part) := by
  calc part.filter (· ∈ other)
      = (l.filter (· ∈ part)).filter (· ∈ other) := by
        rw [filter_mem_of_part hl hpart]
    _ = (l.filter (· ∈ other)).filter (· ∈ part) := List.filter_comm ..
    _ = other.filter (· ∈ part) := by rw [filter_mem_of_part hl hother]

end

namespace Client

variable {g h : Client} {room : Room} {published : List Event}

/-- The whole frames that the client received. -/
def received (g : Client) : List Bytes := Frame.wholeLines g.delivered

/-- The events whose frames were received whole, with their numbers. -/
def receivedEvents (g : Client) : List (Event × Nat) :=
  g.accepted.take (g.received.length - 1)

theorem delivered_prefix (g : Client) : g.delivered <+: g.output :=
  (List.prefix_append_right_inj g.taken).mpr (List.prefix_append _ _)

theorem receivedEvents_prefix (g : Client) : g.receivedEvents <+: g.accepted :=
  List.take_prefix _ _

theorem oneLine_output (events : List (Event × Nat)) :
    ∀ text ∈ Chat.welcome :: frames events, 0x0A ∉ text := by
  intro text htext
  rcases List.mem_cons.mp htext with rfl | hframe
  · exact Response.oneLine _
  · obtain ⟨e, -, rfl⟩ := List.mem_map.mp hframe
    exact e.1.oneLine

/-- The client of a session receives the welcome, then the first of the accepted
events. -/
theorem SessionOutput.received (h : g.SessionOutput) :
    g.received = Chat.welcome :: frames g.receivedEvents := by
  have hall : g.received <+: Chat.welcome :: frames g.accepted :=
    Frame.wholeLines_prefix (oneLine_output g.accepted)
      (g.delivered_prefix.trans h.output)
  have hfirst : [Chat.welcome] <+: g.received :=
    Frame.prefix_wholeLines (oneLine_output []) h.welcome
  obtain ⟨events, hevents⟩ := hfirst
  have hreceived : g.received = Chat.welcome :: events := hevents.symm
  rw [hreceived] at hall
  have hframes : events <+: frames g.accepted :=
    (List.prefix_append_right_inj [_]).mp hall
  have hcount : g.received.length - 1 = events.length := by rw [hreceived]; rfl
  rw [hreceived, receivedEvents, hcount, frames, List.map_take]
  exact congrArg _ (List.prefix_iff_eq_take.mp hframes)

/-- While the writer runs and the stream takes bytes, the accepted events that
were not received still wait. -/
theorem Stage.rest_waits (h : g.Stage room) {session : Session}
    (hphase : g.task.phase = .chatting session true)
    (hblocked : g.task.connection.isBlocked = false) :
    g.accepted.map Prod.fst =
      g.receivedEvents.map Prod.fst ++ session.waiting room := by
  have hnone {phase : Phase} (hother : g.task.phase = phase)
      (hnone : phase.session? = none) : False :=
    Option.some_ne_none session
      ((session?_of_chatting hphase).symm.trans
        (session?_of_phase hother hnone))
  cases h with
  | awaiting hother => exact (hnone hother rfl).elim
  | calling hother => exact (hnone hother rfl).elim
  | answering hother => exact (hnone hother rfl).elim
  | refused hother => exact (hnone hother rfl).elim
  | @writing session' written waiting hsame hleft haccepted hwaiting
    hout houtput =>
      obtain ⟨rfl, -⟩ := Phase.chatting.inj (hphase.symm.trans hsame)
      have hclear := Connection.isBlocked_eq_false_iff.mp hblocked
      have hdelivered :
          g.delivered = Frame.lines (Chat.welcome :: frames written) := by
        rw [← houtput, Client.delivered, Client.output, Connection.output,
          hclear, List.append_nil]
      have hreceived : g.received = Chat.welcome :: frames written := by
        rw [received, hdelivered,
          Frame.wholeLines_lines (oneLine_output written)]
      have hseen : g.receivedEvents = written := by
        rw [receivedEvents, hreceived, haccepted, List.length_cons,
          Nat.add_sub_cancel, frames, List.length_map, List.take_left]
      rw [hseen, haccepted, hwaiting, List.map_append]
  | writerDropped hsame =>
      have hwriting := (Phase.chatting.inj (hphase.symm.trans hsame)).2
      exact (Bool.false_ne_true hwriting.symm).elim
  | closed hover =>
      rcases hover with hended | ⟨due, hstopping⟩
      · exact (hnone hended rfl).elim
      · exact (hnone hstopping rfl).elim

/-- A client without a session receives at most one response. -/
theorem Stage.received_fresh (h : g.Stage room) (hsince : g.since = none) :
    ∃ answer : Response, g.received <+: [answer.bytes] := by
  have hpart {answer : Response}
      (hline : g.output <+: Frame.lines [answer.bytes]) :
      g.received <+: [answer.bytes] := by
    refine Frame.wholeLines_prefix (fun text htext => ?_)
      (g.delivered_prefix.trans hline)
    rw [List.mem_singleton.mp htext]
    exact answer.oneLine
  have hnone (hnothing : g.output = []) :
      g.received <+: [(default : Response).bytes] :=
    hpart (hnothing ▸ List.nil_prefix)
  have hnever (hout : g.SessionOutput) : False := by
    have hbegun := hout.begun
    rw [hsince] at hbegun
    exact Bool.false_ne_true hbegun
  cases h with
  | awaiting _ _ hnothing => exact ⟨_, hnone hnothing⟩
  | calling _ _ hnothing => exact ⟨_, hnone hnothing⟩
  | answering _ _ hline =>
      have hsame := List.prefix_refl g.output
      exact ⟨_, hpart (hline.subst hsame)⟩
  | refused _ _ hline => exact ⟨_, hpart hline⟩
  | writing _ _ _ _ hout => exact (hnever hout).elim
  | writerDropped _ _ hout => exact (hnever hout).elim
  | closed _ _ hout => exact (hnever hout).elim

theorem AcceptedInOrder.receivedEvents (h : g.AcceptedInOrder published) :
    g.receivedEvents.Sublist published.zipIdx :=
  g.receivedEvents_prefix.sublist.trans h.order

/-- No event is published twice. -/
theorem nodup_published (published : List Event) : published.zipIdx.Nodup :=
  .of_map Prod.snd (List.nodup_zipIdx_map_snd published)

end Client

namespace Connections

/-- In every run of the chat, the client of a session receives the welcome first
and then the frames of the first events that its channel accepted: events in the
order of publishing, each once, none from before it subscribed or after the
session ended. The others wait in the channel while the session writes. A client
that never had a session receives nothing behind a response. Any two clients
receive their common events in one order. -/
theorem events_in_one_order (hashing : Hashing) (counter : String)
    (timeout : Time) (buffer : Nat) {room : Room}
    (hbus : room.bus = {}) (moves : List Move) :
    let conns := run (Chat.router hashing counter timeout) buffer { room } moves
    (∀ g ∈ conns.clients, ∀ first, g.since = some first →
      g.received = Chat.welcome :: Client.frames g.receivedEvents ∧
      g.receivedEvents <+: g.accepted ∧
      g.accepted.Sublist conns.published.zipIdx ∧
      (g.receivedEvents.map Prod.fst).Sublist conns.published ∧
      ∀ e ∈ g.receivedEvents, first ≤ e.2 ∧ ∀ last, g.left = some last →
        e.2 < last) ∧
    (∀ g ∈ conns.clients, ∀ session, g.task.phase = .chatting session true →
      g.task.connection.isBlocked = false →
      g.accepted.map Prod.fst =
        g.receivedEvents.map Prod.fst ++ session.waiting conns.room) ∧
    (∀ g ∈ conns.clients, g.since = none →
      ∃ answer : Response, g.received <+: [answer.bytes]) ∧
    ∀ g ∈ conns.clients, ∀ h ∈ conns.clients,
      g.receivedEvents.filter (· ∈ h.receivedEvents) =
        h.receivedEvents.filter (· ∈ g.receivedEvents) := by
  intro conns
  have horder : conns.Invariant :=
    invariant_run (Chat.chatRouter_router hashing counter timeout) hbus moves
  refine ⟨fun g hg first hfirst => ?_, fun g hg session hphase hblocked => ?_,
    fun g hg hnone => ?_, fun g hg h hh => ?_⟩
  · have hdated := horder.acceptedInOrder g hg
    have hout : g.SessionOutput := by
      refine (horder.stage g hg).sessionOutput_or_noSession.resolve_right
        fun hfresh => ?_
      exact nomatch hfirst.symm.trans hfresh.since
    refine ⟨hout.received, g.receivedEvents_prefix, hdated.order, ?_,
      fun e he => ?_⟩
    · have hevents := hdated.receivedEvents.map Prod.fst
      rwa [List.zipIdx_map_fst] at hevents
    · have hmem := g.receivedEvents_prefix.subset he
      exact ⟨(hdated.since first hfirst).2 e hmem,
        fun last hlast => hdated.left last hlast e hmem⟩
  · exact (horder.stage g hg).rest_waits hphase hblocked
  · exact (horder.stage g hg).received_fresh hnone
  · exact filter_mem_comm (Client.nodup_published _)
      (horder.acceptedInOrder g hg).receivedEvents
        (horder.acceptedInOrder h hh).receivedEvents

def sampleEvent (text : String) : Event :=
  .newMessage { (default : Message) with text }

/-- An event is published, one client connects, and another one between the next
two events. Both receive the event that waits for both, the first disconnects
with one event in its channel, and the second continues. -/
def sampleSubscribers : List Move :=
  [.publish (sampleEvent "a")] ++ sampleHandshake 0 .streaming ++
    [.publish (sampleEvent "b")] ++
    sampleHandshake 1 .streaming ++ [.publish (sampleEvent "c"),
      .perform 0 .writeEvent, .perform 1 .writeEvent,
    .perform 0 .writeEvent, .publish (sampleEvent "d"), .socketAction 0 .finish,
      .perform 0 (.readFrame 1),
    .publish (sampleEvent "e"), .perform 0 .writeEvent, .perform 1 .writeEvent]

theorem sampleSubscribers_in_one_order :
    let conns :=
      run (Chat.router .plain "" 100) 5 { room := sampleRoom } sampleSubscribers
    (conns.clients.map fun g =>
        (g.since, g.left, g.accepted.map Prod.snd,
          g.receivedEvents.map Prod.snd)) =
        [(some 1, some 4, [1, 2, 3], [1, 2]),
          (some 2, none, [2, 3, 4], [2, 3])] ∧
      ∀ g ∈ conns.clients,
        g.received = Chat.welcome :: Client.frames g.receivedEvents ∧
        ∀ h ∈ conns.clients,
          g.receivedEvents.filter (· ∈ h.receivedEvents) =
            h.receivedEvents.filter (· ∈ g.receivedEvents) := by
  intro conns
  have hrun : (conns.clients.map fun g =>
      (g.since, g.left, g.accepted.map Prod.snd,
        g.receivedEvents.map Prod.snd)) =
      [(some 1, some 4, [1, 2, 3], [1, 2]),
          (some 2, none, [2, 3, 4], [2, 3])] := by
    decide +kernel
  obtain ⟨hsession, -, -, hcommon⟩ :=
    events_in_one_order .plain "" 100 5 (show sampleRoom.bus = {} from rfl)
      sampleSubscribers
  refine ⟨hrun, fun g hg => ⟨?_, hcommon g hg⟩⟩
  have hmem := List.mem_map_of_mem hg (f := fun g =>
    (g.since, g.left, g.accepted.map Prod.snd, g.receivedEvents.map Prod.snd))
  rw [hrun] at hmem
  rcases List.mem_cons.mp hmem with hfirst | hmem
  · exact (hsession g hg 1 (Prod.mk.inj hfirst).1).1
  · exact (hsession g hg 2 (Prod.mk.inj (List.mem_singleton.mp hmem)).1).1

end Connections

end ChatRelay
