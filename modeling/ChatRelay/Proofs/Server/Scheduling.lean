import ChatRelay.Proofs.Chat.SessionSlots
import ChatRelay.Server.Hub
/-!
# Polls are sequences of atomic steps

A hub polls each connection task, which then runs as far as it can. One poll is
a sequence of atomic steps of that task together with the events it publishes.
So every run of a hub is a run of its connections, and what holds in all runs of
the connections holds of the hub.
-/

namespace ChatRelay

/-- The effect of a client's action on its socket. -/
def SocketAction.onSocket : SocketAction → Socket → Socket
  | deliver bytes => (·.deliver bytes)
  | finish => Socket.finish
  | leave => Socket.leave
  | pauseReading => fun s => { s with reading := false }
  | resumeReading => fun s => { s with reading := true }
  | collect => (·.collect.2)

theorem Client.task_socketAction (g : Client) (x : SocketAction) :
    (g.socketAction x).task = (g.onSocket x.onSocket).task := by
  cases x <;> rfl

structure ServerState where
  room : Room
  tasks : List ConnectionTask

namespace Connections

/-- The state without the recorded history. -/
def serverState (conns : Connections) : ServerState :=
  ⟨conns.room, conns.clients.map Client.task⟩

end Connections

namespace ServerState

variable {router : Room.Router} {buffer : Nat} {s s' s'' : ServerState}

/-- Some moves lead from one state to another. -/
def Reaches (router : Room.Router) (buffer : Nat) (s s' : ServerState) : Prop :=
  ∃ moves, ∀ conns : Connections, conns.serverState = s →
    (conns.run router buffer moves).serverState = s'

theorem Reaches.refl (s : ServerState) : Reaches router buffer s s :=
  ⟨[], fun _ h => h⟩

theorem Reaches.trans (h : Reaches router buffer s s')
    (h' : Reaches router buffer s' s'') :
    Reaches router buffer s s'' := by
  obtain ⟨moves, hmoves⟩ := h
  obtain ⟨more, hmore⟩ := h'
  refine ⟨moves ++ more, fun conns hconns => ?_⟩
  rw [Connections.run, List.foldl_append]
  exact hmore _ (hmoves conns hconns)

theorem reaches_connect (limit : Nat) (context : Context) (room : Room)
    (cs : List ConnectionTask) :
    Reaches router buffer ⟨room, cs⟩
      ⟨room, cs ++
        [{ connection := .ofLimit context.connection limit, context }]⟩ := by
  refine ⟨[.connect limit context], fun conns hconns => ?_⟩
  obtain ⟨rfl, rfl⟩ := ServerState.mk.inj hconns
  exact congrArg _ List.map_append

theorem reaches_socketAction (i : Nat) (x : SocketAction) (room : Room)
    (cs : List ConnectionTask) :
    Reaches router buffer ⟨room, cs⟩
      ⟨room, cs.modify i fun c =>
        { c with
          connection := { c.connection with
            socket := x.onSocket c.connection.socket } }⟩ := by
  refine ⟨[.socketAction i x], fun conns hconns => ?_⟩
  obtain ⟨rfl, rfl⟩ := ServerState.mk.inj hconns
  apply congrArg (ServerState.mk conns.room)
  change (conns.clients.modify i (·.socketAction x)).map Client.task = _
  apply List.ext_getElem?
  intro j
  rw [List.getElem?_map, List.getElem?_modify, List.getElem?_modify,
    List.getElem?_map]
  cases conns.clients[j]? with
  | none => rfl
  | some g =>
      simp only [Option.map_some]
      split
      · exact congrArg some (g.task_socketAction x)
      · rfl

theorem reaches_changeRoom {room room' : Room} (hbus : room'.bus = room.bus)
    (cs : List ConnectionTask) :
    Reaches router buffer ⟨room, cs⟩ ⟨room', cs⟩ := by
  refine ⟨[.changeRoom room'], fun conns hconns => ?_⟩
  obtain ⟨rfl, rfl⟩ := ServerState.mk.inj hconns
  apply congrArg (ServerState.mk · (conns.clients.map Client.task))
  change { room' with bus := conns.room.bus } = room'
  rw [← hbus]

theorem reaches_publish (event : Event) (room : Room)
    (cs : List ConnectionTask) :
    Reaches router buffer ⟨room, cs⟩ ⟨(room.publish event).2, cs⟩ := by
  refine ⟨[.publish event], fun conns hconns => ?_⟩
  obtain ⟨rfl, rfl⟩ := ServerState.mk.inj hconns
  apply congrArg (ServerState.mk (conns.room.publish event).2)
  change (List.map _ conns.clients).map Client.task = _
  rw [List.map_map]
  apply List.map_congr_left
  intro g _
  unfold Function.comp Client.offer
  split
  · rfl
  · split <;> rfl

end ServerState

namespace Connection

variable {c c' : Connection}

theorem readAll_frame {frame : Bytes} (h : c.read = (.frame frame, c')) :
    c.readAll = (frame :: c'.readAll.1, c'.readAll.2) := by
  rw [readAll]
  split <;> simp_all

theorem readAll_error {e : FrameError} (h : c.read = (.error e, c')) :
    c.readAll = ([], some e, c') := by
  rw [readAll]
  split <;> simp_all

theorem readAll_pending (h : c.read = (.pending, c')) :
    c.readAll = ([], none, c') := by
  rw [readAll]
  split <;> simp_all

end Connection

namespace ConnectionTask

/-- Atomic steps of one task and its publications lead from one state to
another. -/
def Decomposes (router : Room.Router) (buffer : Nat) (c : ConnectionTask)
    (room : Room) (after : ConnectionTask × Room) : Prop :=
  ∀ before behind,
    ServerState.Reaches router buffer ⟨room, before ++ c :: behind⟩
    ⟨after.2, before ++ after.1 :: behind⟩

variable {router : Room.Router} {buffer : Nat} {now : Time} {session : Session}
    {writing : Bool}
  {c c' : ConnectionTask} {room room' : Room} {after : ConnectionTask × Room}

theorem decomposes_refl (c : ConnectionTask) (room : Room) :
    Decomposes router buffer c room (c, room) :=
  fun _ _ => .refl _

theorem Decomposes.trans (h : Decomposes router buffer c room (c', room'))
    (h' : Decomposes router buffer c' room' after) :
    Decomposes router buffer c room after :=
  fun before behind => (h before behind).trans (h' before behind)

theorem decomposes_changeRoom (hbus : room'.bus = room.bus) :
    Decomposes router buffer c room (c, room') :=
  fun _ _ => ServerState.reaches_changeRoom hbus _

theorem decomposes_perform (step : AtomicStep) (c : ConnectionTask)
    (room : Room) :
    Decomposes router buffer c room (c.perform router buffer step room) := by
  intro before behind
  refine ⟨[.perform before.length step], fun conns hconns => ?_⟩
  obtain ⟨rfl, htasks⟩ := ServerState.mk.inj hconns
  obtain ⟨early, late, hclients, rfl, hlate⟩ := List.map_eq_append_iff.mp htasks
  obtain ⟨g, late, rfl, rfl, rfl⟩ := List.map_eq_cons_iff.mp hlate
  have hat : conns.clients[(early.map Client.task).length]? = some g := by
    rw [hclients, List.length_map, List.getElem?_append_right (Nat.le_refl _),
      Nat.sub_self]
    rfl
  change (conns.perform router buffer _ step).serverState = _
  rw [Connections.perform, hat]
  apply congrArg (ServerState.mk _)
  change (conns.clients.set _ _).map Client.task = _
  rw [hclients, List.length_map, List.set_append_right _ _ (Nat.le_refl _),
    Nat.sub_self, List.map_append]
  rfl

/-- A single step, given its action and its result. -/
theorem decomposes_step (step : AtomicStep)
    (h : c.perform router buffer step room = after) :
    Decomposes router buffer c room after :=
  h ▸ decomposes_perform step c room

/-- A frame of a client is stored and then published, or refused. -/
theorem decomposes_handleFrame (user : Int) (now : Time) (frame : Bytes)
    (c : ConnectionTask) (room : Room) :
    Decomposes router buffer c room
      (c, Session.handleFrame user now room frame) := by
  unfold Session.handleFrame
  split
  · next event _ =>
    have hkeep : (Session.persist user now event room).2.bus = room.bus := by
      unfold Session.persist Room.keepMessage
      cases room.fault <;> rfl
    refine (decomposes_changeRoom hkeep).trans ?_
    simp only [Session.handleEvent]
    cases (Session.persist user now event room).1 with
    | none => exact decomposes_refl c _
    | some kept => exact fun _ _ => ServerState.reaches_publish kept _ _
  · exact decomposes_changeRoom rfl

theorem readFrames_frame {frame : Bytes} {connection : Connection}
    (hread : c.connection.read = (.frame frame, connection)) :
    readFrames now session writing c room =
      readFrames now session writing { c with connection }
        (Session.handleFrame session.user now room frame) := by
  rw [readFrames, Connection.readAll_frame hread]
  rfl

theorem decomposes_readFrames (hphase : c.phase = .chatting session writing) :
    Decomposes router buffer c room
      (readFrames now session writing c room) := by
  -- each frame leaves less to read
  induction hunread : c.connection.unread
    using Nat.strongRecOn generalizing c room with
  | ind n ih =>
    have hperform : c.perform router buffer (.readFrame now) room =
        readFrame now session writing c room := by
      simp only [perform, hphase]
    rcases hread : c.connection.read with ⟨incoming, connection⟩
    cases incoming with
    | frame frame =>
        have hless := Connection.read_frame_unread hread
        have hsingle : readFrame now session writing c room =
            ({ c with connection }, room) := by
          simp only [readFrame, hread]
        rw [readFrames_frame hread]
        refine (decomposes_step _ (hperform.trans hsingle)).trans ?_
        refine (decomposes_handleFrame session.user now frame _ _).trans ?_
        exact ih _ (hunread ▸ hless) hphase rfl
    | error e =>
        apply decomposes_step _ (hperform.trans _)
        simp only [readFrame, hread, readFrames, Connection.readAll_error hread]
        rfl
    | pending =>
        apply decomposes_step _ (hperform.trans _)
        simp only [readFrame, hread, readFrames,
          Connection.readAll_pending hread]
        rfl

theorem decomposes_resumeEcho (hphase : c.phase = .echoing) :
    Decomposes router buffer c room (c.resumeEcho, room) := by
  apply decomposes_step .echo
  simp only [perform, hphase]

/-- Behind the response a session begins and reads the frames that came
already. -/
theorem decomposes_runUpgrade {upgrade : Option Upgrade} {streaming : Bool}
    (hphase : c.phase = .answering upgrade streaming)
    (hblocked : c.connection.isBlocked = false) :
    Decomposes router buffer c room
      (runUpgrade now buffer upgrade streaming c room) := by
  have hstep : c.perform router buffer .beginUpgrade room =
      beginUpgrade buffer upgrade streaming c room := by
    simp only [perform, hphase, hblocked, Bool.false_eq_true, if_false]
  have henter := decomposes_step .beginUpgrade hstep
  unfold runUpgrade
  generalize beginUpgrade buffer upgrade streaming c room = entered at henter
  obtain ⟨c', room'⟩ := entered
  simp only
  split
  · next hechoing => exact henter.trans (decomposes_resumeEcho hechoing)
  · next hchatting => exact henter.trans (decomposes_readFrames hchatting)
  · exact henter

theorem decomposes_afterResponse (c : ConnectionTask) (room : Room) :
    Decomposes router buffer c room (afterResponse now buffer c room) := by
  unfold afterResponse
  split
  · next hphase =>
    split
    · exact decomposes_refl c room
    · next hblocked =>
        exact decomposes_runUpgrade hphase (Bool.eq_false_iff.mpr hblocked)
  · exact decomposes_refl c room

/-- The response is written when the handler is done. -/
theorem decomposes_finishRequest {due : Time} {response : Response}
    {records : List Record} {streaming : Bool}
    (hphase : c.phase = .calling (some due) response records streaming) :
    Decomposes router buffer c room
      (finishRequest now buffer response records streaming c room) := by
  have hstep : c.perform router buffer .respond room =
      respond response records streaming c room := by
    simp only [perform, hphase]
  exact (decomposes_step .respond hstep).trans (decomposes_afterResponse _ _)

theorem decomposes_serveRequest (hphase : c.phase = .awaiting) :
    Decomposes router buffer c room
      (serveRequest now router buffer c room) := by
  have hstep : c.perform router buffer (.readRequest now) room =
      readRequest now router c room := by
    simp only [perform, hphase]
  have hask := decomposes_step (.readRequest now) hstep
  unfold serveRequest
  generalize readRequest now router c room = result at hask
  obtain ⟨c', room'⟩ := result
  simp only
  split
  · next hcalling =>
    split
    · exact hask.trans (decomposes_finishRequest hcalling)
    · exact hask
  · exact hask

theorem decomposes_resume (c : ConnectionTask) (room : Room) :
    Decomposes router buffer c room (resume now router buffer c room) := by
  unfold resume
  split
  · next hphase => exact decomposes_serveRequest hphase
  · exact decomposes_refl c room
  · next hphase =>
    have hstep : c.perform router buffer .flush room = flush c room := by
      simp only [perform, hphase]
    exact (decomposes_step .flush hstep).trans (decomposes_afterResponse _ _)
  · next hphase => exact decomposes_resumeEcho hphase
  · next hphase => exact decomposes_readFrames hphase
  · next hphase =>
    have hstep : c.perform router buffer .flush room = flush c room := by
      simp only [perform, hphase]
    have hflush := decomposes_step .flush hstep
    generalize flush c room = flushed at hflush
    obtain ⟨c', room'⟩ := flushed
    simp only
    split
    · next hstopping =>
      split
      · exact hflush
      · refine hflush.trans (decomposes_step .stop ?_)
        simp only [perform, hstopping]
    · exact hflush
  · exact decomposes_refl c room

/-- Writing any number of events is writing them one after another. -/
theorem decomposes_writeQueued (n : Nat)
    (hphase : c.phase = .chatting session true)
    (hclear : c.connection.writer.waiting = []) :
    Decomposes router buffer c room (writeQueued n session c room) := by
  induction n generalizing c room with
  | zero =>
      apply decomposes_step .flush
      simp only [perform, hphase]
  | succ n ih =>
      have hstep : c.perform router buffer .writeEvent room =
          writeQueued 1 session c room := by
        simp only [perform, hphase, Connection.isBlocked_eq_false_iff.mpr
          hclear, Bool.false_eq_true, if_false]
      have htell := decomposes_step .writeEvent hstep
      cases hwaiting : session.waiting room with
      | nil =>
          rw [writeQueued_nothing (n + 1) hclear hwaiting]
          exact decomposes_refl c room
      | cons event queue =>
          simp only [writeQueued, Session.write_one hclear hwaiting] at htell
          rcases c.connection.write_cases event.bytes with
            ⟨connection, hwrite, -, -, hclear'⟩ | ⟨connection, hwrite, -⟩ |
            ⟨e, connection, hwrite, -⟩
          · simp only [hwrite] at htell
            have hmore := @ih { c with connection } { room with
              bus := room.bus.modify session.subscription.channel fun channel =>
                { channel with queue } } hphase hclear'
            rw [writeQueued, Session.write_event n hclear hwaiting
              hwrite hclear']
            exact htell.trans hmore
          · simp only [hwrite] at htell
            rw [writeQueued, Session.write_halt n hclear hwaiting
              hwrite (by simp)]
            exact htell
          · simp only [hwrite] at htell
            rw [writeQueued, Session.write_halt n hclear hwaiting
              hwrite (by simp)]
            exact htell

theorem decomposes_writeEvents (c : ConnectionTask) (room : Room) :
    Decomposes router buffer c room (writeEvents c room) := by
  unfold writeEvents
  split
  · next session hphase =>
    have hstep :
        c.perform router buffer .flush room = writeQueued 0 session c room := by
      simp only [perform, hphase]
    have hflush := decomposes_step .flush hstep
    simp only [writeQueued, Session.write_zero] at hflush
    rcases c.connection.flush_cases with ⟨connection, hwritten, -, hclear⟩ |
      ⟨connection, hwritten, -⟩ | ⟨e, hwritten, -⟩
    · simp only [hwritten] at hflush
      have hwrite :=
        @decomposes_writeQueued router buffer session { c with connection } room
          (session.waiting room).length hphase hclear
      have hsame : writeQueued (session.waiting room).length session
          { c with connection } room =
          writeQueued (session.waiting room).length session c room := by
        simp only [writeQueued, Session.write, hwritten,
          Connection.flush_clear hclear]
      exact hflush.trans (hsame ▸ hwrite)
    · simp only [hwritten] at hflush
      simp only [writeQueued, Session.write, hwritten]
      exact hflush
    · simp only [hwritten] at hflush
      simp only [writeQueued, Session.write, hwritten]
      exact hflush
  · exact decomposes_refl c room

theorem decomposes_wake (c : ConnectionTask) (room : Room) :
    Decomposes router buffer c room (wake now buffer c room) := by
  unfold wake
  split
  · exact decomposes_refl c room
  split
  · next due response records streaming hphase =>
      exact decomposes_finishRequest hphase
  · next due hphase =>
    have hstep : c.perform router buffer .stop room = (c.stop, room) := by
      simp only [perform, hphase]
    exact (decomposes_step .stop hstep).trans (decomposes_changeRoom rfl)
  · exact decomposes_refl c room

end ConnectionTask

namespace Hub

variable {router : Room.Router} {buffer : Nat} {now : Time} {hub hub' : Hub}

def serverState (hub : Hub) : ServerState := ⟨hub.room, hub.tasks⟩

/-- One hub is reached from another by moves of its connections. -/
structure Follows (hub hub' : Hub) : Prop where
  router : hub'.router = hub.router
  buffer : hub'.buffer = hub.buffer
  reaches :
    ServerState.Reaches hub.router hub.buffer hub.serverState hub'.serverState

theorem Follows.refl (hub : Hub) : hub.Follows hub := ⟨rfl, rfl, .refl _⟩

theorem Follows.trans {hub'' : Hub} (h : hub.Follows hub')
    (h' : hub'.Follows hub'') :
    hub.Follows hub'' := by
  refine ⟨h'.router.trans h.router, h'.buffer.trans h.buffer,
    h.reaches.trans ?_⟩
  rw [← h.router, ← h.buffer]
  exact h'.reaches

theorem reaches_runEach {step : TaskStep}
    (hstep : ∀ c room,
      ConnectionTask.Decomposes router buffer c room (step c room))
    (before cs : List ConnectionTask) (room : Room) :
    ServerState.Reaches router buffer ⟨room, before ++ cs⟩
      ⟨(runEach step cs room).2, before ++ (runEach step cs room).1⟩ := by
  induction cs generalizing before room with
  | nil => exact .refl _
  | cons c cs ih =>
      have hfirst := hstep c room before cs
      have hrest := ih (before ++ [(step c room).1]) (step c room).2
      simp only [List.append_assoc, List.singleton_append] at hrest
      exact hfirst.trans hrest

theorem follows_each {step : TaskStep}
    (hstep : ∀ c room,
      ConnectionTask.Decomposes hub.router hub.buffer c room (step c room)) :
    hub.Follows (hub.each step) :=
  ⟨rfl, rfl, reaches_runEach hstep [] hub.tasks hub.room⟩

theorem follows_settle (hub : Hub) (now : Time) :
    hub.Follows (hub.settle now) :=
  (follows_each ConnectionTask.decomposes_resume).trans
    (follows_each ConnectionTask.decomposes_writeEvents)

theorem follows_wake (hub : Hub) (now : Time) : hub.Follows (hub.wake now) :=
  (follows_each ConnectionTask.decomposes_wake).trans (follows_settle _ now)

theorem follows_advance (hub : Hub) (now target : Time) :
    hub.Follows (hub.advance now target) := by
  fun_induction advance hub now target with
  | case1 => exact .refl _
  | case2 hub now due _ _ _ ih => exact (hub.follows_wake due).trans ih
  | case3 => exact .refl _

theorem follows_changeRoom {room : Room} (hbus : room.bus = hub.room.bus) :
    hub.Follows { hub with room } :=
  ⟨rfl, rfl, ServerState.reaches_changeRoom hbus _⟩

theorem follows_accept (hub : Hub) (context : Context) :
    hub.Follows (hub.accept context).2 :=
  ⟨rfl, rfl, ServerState.reaches_connect hub.limit context _ _⟩

theorem follows_onSocket (hub : Hub) (number : Nat) (x : SocketAction) :
    hub.Follows (hub.onSocket number x.onSocket) :=
  ⟨rfl, rfl, ServerState.reaches_socketAction number x _ _⟩

theorem follows_change (hub : Hub) (now : Time) (number : Nat)
    (x : SocketAction) :
    hub.Follows (hub.change now number x.onSocket) :=
  (hub.follows_onSocket number x).trans (follows_settle _ now)

theorem follows_deliver (hub : Hub) (now : Time) (number : Nat)
    (bytes : Bytes) :
    hub.Follows (hub.deliver now number bytes) := by
  unfold deliver
  generalize portions Socket.capacity bytes.length bytes = pieces
  induction pieces generalizing hub with
  | nil => exact .refl hub
  | cons piece pieces ih =>
      exact (hub.follows_change now number (.deliver piece)).trans (ih _)

theorem follows_collect (hub : Hub) (number : Nat) :
    hub.Follows (hub.collect number).2 := by
  unfold collect
  split
  · exact .refl hub
  · exact hub.follows_onSocket number .collect

theorem follows_call (hquiet : router.Quiet) (hub : Hub) (now : Time)
    (request : Request) :
    hub.Follows (hub.call router now request).2.2 := by
  have hcall := hub.follows_changeRoom (hquiet now {} request hub.room)
  unfold call
  generalize hub.room.call router now {} request = called at hcall ⊢
  obtain ⟨reply, room⟩ := called
  cases reply with
  | none => exact hcall
  | some reply =>
  cases reply with
  | broken message => exact hcall
  | never => exact hcall
  | ready delay response records =>
      have hwaited :=
        hcall.trans (follows_advance { hub with room } now (now + delay))
      exact hwaited.trans (follows_changeRoom rfl)

/-- The inputs of a hub: actions of clients and of the program. -/
inductive Occurs (hub : Hub) : Hub → Prop
  | accept (context : Context) : Occurs hub (hub.accept context).2
  | deliver (now : Time) (number : Nat) (bytes : Bytes) :
      Occurs hub (hub.deliver now number bytes)
  | change (now : Time) (number : Nat) (x : SocketAction) :
      Occurs hub (hub.change now number x.onSocket)
  | collect (number : Nat) : Occurs hub (hub.collect number).2
  | advance (now target : Time) : Occurs hub (hub.advance now target)
  /-- A service is called without a connection. -/
  | call {router : Room.Router} (hquiet : router.Quiet) (now : Time)
      (request : Request) :
      Occurs hub (hub.call router now request).2.2
  /-- Anything but the bus changes. -/
  | changeRoom {room : Room} (hbus : room.bus = hub.room.bus) :
    Occurs hub { hub with room }

theorem Occurs.follows (h : hub.Occurs hub') : hub.Follows hub' := by
  cases h with
  | accept context => exact hub.follows_accept context
  | deliver now number bytes => exact hub.follows_deliver now number bytes
  | change now number x => exact hub.follows_change now number x
  | collect number => exact hub.follows_collect number
  | advance now target => exact hub.follows_advance now target
  | call hquiet now request => exact follows_call hquiet hub now request
  | changeRoom hbus => exact follows_changeRoom hbus

/-- A hub that was created empty, after any sequence of inputs. -/
inductive Reached (start : Hub) : Hub → Prop
  | start (hnone : start.tasks = []) : Reached start start
  | next {hub hub' : Hub} (h : Reached start hub) (hoccurs : hub.Occurs hub') :
      Reached start hub'

theorem Reached.follows {start : Hub} (h : start.Reached hub) :
    start.Follows hub := by
  induction h with
  | start => exact .refl start
  | next _ hoccurs ih => exact ih.trans hoccurs.follows

theorem Reached.empty {start : Hub} (h : start.Reached hub) :
    start.tasks = [] := by
  induction h with
  | start hnone => exact hnone
  | next _ _ ih => exact ih

/-- Every reachable hub corresponds to a run of its connections. -/
theorem Reached.conns {start : Hub} (h : start.Reached hub) :
    ∃ moves, (Connections.run start.router start.buffer { room := start.room }
      moves).serverState = hub.serverState := by
  obtain ⟨moves, hmoves⟩ := h.follows.reaches
  refine ⟨moves, hmoves _ ?_⟩
  rw [serverState, h.empty]
  rfl

/-- The taken slots of a hub's bus are those of its sessions. -/
theorem Reached.slotsHeld {start : Hub} (h : start.Reached hub)
    (hrouter : Chat.ChatRouter start.router) (hbus : start.room.bus = {}) :
    SlotsHeld hub.room.bus (hub.tasks.map ConnectionTask.session?) := by
  obtain ⟨moves, hmoves⟩ := h.conns
  have horder := @Connections.invariant_run _ start.buffer hrouter _ hbus moves
  obtain ⟨hroom, htasks⟩ := ServerState.mk.inj hmoves
  rw [← hroom, ← htasks, List.map_map]
  exact horder.slotsHeld

end Hub

end ChatRelay
