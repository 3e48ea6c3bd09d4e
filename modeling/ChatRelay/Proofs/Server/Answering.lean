import ChatRelay.Proofs.Server.ExchangeSteps
/-!
# The response to the first frame

The first frame on a connection determines at most one response. The task sends
no other response and sends it at most once, whatever else the client sends, and
only frames of an upgraded protocol follow it. A response within the limit is
sent completely to a client that keeps reading. A response beyond the limit is
not sent at all.
-/

namespace ChatRelay

/-- A connection task with its room and the bytes that the client has taken or
lost. -/
structure Exchange where
  task : ConnectionTask
  room : Room
  taken : Bytes := []

namespace Exchange

/-- All bytes sent to the client. -/
def delivered (e : Exchange) : Bytes := e.taken ++ e.task.connection.sent

/-- The response determined by the first frame. -/
def expected? (router : Room.Router) (now : Time) (e : Exchange)
    (frame : Bytes) : Option DueResponse :=
  match Request.decode frame with
  | .error error => some ⟨now, ConnectionTask.badRequest error, false⟩
  | .ok request =>
    match (e.room.call router now e.task.context request).1 with
    | some (.ready delay response _) =>
      some ⟨now + delay, response, request.proto.isStreaming⟩
    | _ => none

/-- The moves of the connection task, of the client, and of others that change
the room. -/
inductive Move where
  | resume (now : Time)
  | writeEvents
  | wake (now : Time)
  | deliver (bytes : Bytes)
  | finish
  | leave
  | pauseReading
  | resumeReading
  | collect
  | changeRoom (room : Room)

/-- The exchange after a step of the connection task. -/
def update (e : Exchange) (after : ConnectionTask × Room) : Exchange :=
  { e with task := after.1, room := after.2 }

def onSocket (e : Exchange) (f : Socket → Socket) : Exchange :=
  { e with task.connection.socket := f e.task.connection.socket }

def move (router : Room.Router) (buffer : Nat) (e : Exchange) : Move → Exchange
  | .resume now => e.update (e.task.resume now router buffer e.room)
  | .writeEvents => e.update (e.task.writeEvents e.room)
  | .wake now => e.update (e.task.wake now buffer e.room)
  | .deliver bytes => e.onSocket (·.deliver bytes)
  | .finish => e.onSocket Socket.finish
  | .leave => { e.onSocket Socket.leave with taken := e.delivered }
  | .pauseReading => e.onSocket fun s => { s with reading := false }
  | .resumeReading => e.onSocket fun s => { s with reading := true }
  | .collect =>
    { e.onSocket (·.collect.2) with
      taken := e.taken ++ e.task.connection.socket.collect.1 }
  | .changeRoom room => { e with room }

def run (router : Room.Router) (buffer : Nat) (e : Exchange)
    (moves : List Move) : Exchange :=
  moves.foldl (move router buffer) e

/-- A new connection. -/
def start (id limit : Nat) (context : Context) (room : Room) : Exchange :=
  { task := { connection := .ofLimit id limit, context }, room }

end Exchange

namespace Answering

/-- A move that respects the assumptions on the client: it does not disconnect
if `stays`, and does not stop reading if `reads`. -/
def Keeps (stays reads : Prop) (m : Exchange.Move) : Prop :=
  (stays → m ≠ .leave) ∧ (reads → m ≠ .pauseReading)

/-- A move that preserves the phase and the output. -/
structure Quiet (stays reads : Prop) (e e' : Exchange) : Prop where
  phase : e'.task.phase = e.task.phase
  writer : e'.task.connection.writer = e.task.connection.writer
  closed : e'.task.connection.socket.closed = e.task.connection.socket.closed
  delivered : e'.delivered = e.delivered
  gone : stays → e.task.connection.socket.gone = false →
    e'.task.connection.socket.gone = false
  reading : reads → e.task.connection.socket.reading = true →
    e'.task.connection.socket.reading = true

section

variable {limit : Nat} {stays reads : Prop} {a : DueResponse}
    {expected : Option DueResponse} {e e' : Exchange}
  {m : Exchange.Move} {router : Room.Router} {buffer : Nat}

/-- Every move is a step of the connection task or quiet. -/
theorem move_cases (e : Exchange) (router : Room.Router) (buffer : Nat)
    (hm : Keeps stays reads m) :
    (∃ now, m = .resume now) ∨ m = .writeEvents ∨ (∃ now, m = .wake now) ∨
      Quiet stays reads e (e.move router buffer m) := by
  have hsame (socket : Socket)
      (hsocket : socket.outbox = e.task.connection.socket.outbox ∧
      socket.closed = e.task.connection.socket.closed ∧
      socket.gone = e.task.connection.socket.gone ∧
      (reads → e.task.connection.socket.reading = true →
        socket.reading = true)) :
      Quiet stays reads e (e.onSocket fun _ => socket) := by
    obtain ⟨houtbox, hclosed, hgone, hreading⟩ := hsocket
    refine ⟨rfl, rfl, hclosed, ?_, fun _ h => hgone.trans h, hreading⟩
    simp only [Exchange.delivered, Exchange.onSocket, Connection.sent, houtbox]
  cases m with
  | resume now => exact .inl ⟨now, rfl⟩
  | writeEvents => exact .inr (.inl rfl)
  | wake now => exact .inr (.inr (.inl ⟨now, rfl⟩))
  | changeRoom room =>
      exact .inr (.inr (.inr ⟨rfl, rfl, rfl, rfl, fun _ h => h, fun _ h => h⟩))
  | finish => exact .inr (.inr (.inr (hsame _ ⟨rfl, rfl, rfl, fun _ h => h⟩)))
  | resumeReading =>
    exact .inr (.inr (.inr (hsame _ ⟨rfl, rfl, rfl, fun _ _ => rfl⟩)))
  | pauseReading =>
    exact .inr
      (.inr (.inr (hsame _ ⟨rfl, rfl, rfl, fun h => absurd rfl (hm.2 h)⟩)))
  | deliver bytes =>
      refine .inr (.inr (.inr (hsame _ ?_)))
      unfold Socket.deliver
      split <;> exact ⟨rfl, rfl, rfl, fun _ h => h⟩
  | leave =>
      refine .inr (.inr
        (.inr ⟨rfl, rfl, rfl, ?_, fun h => absurd rfl (hm.1 h), fun _ h => h⟩))
      exact List.append_nil e.delivered
  | collect =>
      refine .inr (.inr (.inr ⟨rfl, rfl, ?_, ?_, ?_, ?_⟩))
      all_goals
        cases hreading : e.task.connection.socket.reading <;>
          simp [Exchange.move, Exchange.onSocket, Exchange.delivered,
            Connection.sent, Socket.collect, hreading]

theorem Quiet.peer (h : Quiet stays reads e e')
    (hpeer : Peer limit stays reads e.task.connection) :
    Peer limit stays reads e'.task.connection :=
  ⟨h.writer ▸ hpeer.limit_eq, fun hstays => h.gone hstays (hpeer.gone hstays),
    fun hreads => h.reading hreads (hpeer.reading hreads)⟩

theorem Quiet.output (h : Quiet stays reads e e') :
    e'.taken ++ e'.task.connection.output =
      e.taken ++ e.task.connection.output := by
  have hdelivered := h.delivered
  simp only [Exchange.delivered] at hdelivered
  simp only [Connection.output, ← List.append_assoc, hdelivered, h.writer]

theorem Quiet.invariant (h : Quiet stays reads e e')
    (hinv : ExchangeInvariant limit stays reads expected e.taken e.task) :
    ExchangeInvariant limit stays reads expected e'.taken e'.task := by
  refine ⟨h.peer hinv.peer, ?_⟩
  have hsame : e.taken ++ e.task.connection.sent =
      e'.taken ++ e'.task.connection.sent := h.delivered.symm
  cases hinv.answered with
  | never hphase hexpected hnothing =>
      exact .never (h.phase.trans hphase) hexpected (h.output.trans hnothing)
  | refused hphase hexpected hnothing =>
      exact .refused (h.phase.trans hphase) hexpected (h.output.trans hnothing)
  | cut hphase hexpected hfits hleft hpart =>
      exact .cut (h.phase.trans hphase) hexpected hfits hleft
        (h.output.symm ▸ hpart)
  | answering hphase hexpected hfits hrests hclosed hline =>
      exact .answering (h.phase.trans hphase) hexpected hfits hrests
        (h.closed.trans hclosed) (h.output.trans hline)
  | session hphase hexpected hopened =>
      refine .session (h.phase.symm ▸ hphase) hexpected
        ⟨hopened.fits, hopened.opens, ?_, ?_⟩
      · exact hsame ▸ hopened.line
      · exact h.output.symm ▸ hopened.output
  | last hphase hexpected hsent =>
      refine .last (h.phase.symm ▸ hphase) hexpected
        ⟨hsent.fits, hsent.follows, ?_, ?_⟩
      · exact hsame ▸ hsent.line
      · exact h.output.symm ▸ hsent.output

theorem Quiet.calling (h : Quiet stays reads e e')
    (hcalling : Calling a e.taken e.task) :
    Calling a e'.taken e'.task := by
  obtain ⟨records, hphase⟩ := hcalling.phase
  exact ⟨⟨records, h.phase.trans hphase⟩, h.output.trans hcalling.fresh.nothing,
    h.closed.trans hcalling.fresh.closed⟩

/-- The handler is running, or the response has been determined. -/
def Underway (limit : Nat) (stays reads : Prop) (expected : Option DueResponse)
    (e : Exchange) : Prop :=
  ExchangeInvariant limit stays reads expected e.taken e.task ∨
    ∃ a, expected = some a ∧ Peer limit stays reads e.task.connection ∧
      Calling a e.taken e.task

theorem invariant_move (hm : Keeps stays reads m)
    (h : ExchangeInvariant limit stays reads expected e.taken e.task) :
    ExchangeInvariant limit stays reads expected (e.move router buffer m).taken
      (e.move router buffer m).task := by
  rcases move_cases e router buffer hm
    with ⟨now, rfl⟩ | rfl | ⟨now, rfl⟩ | hquiet
  · exact resume_invariant router h
  · exact writeEvents_invariant h
  · exact wake_invariant h
  · exact hquiet.invariant h

theorem underway_move (hm : Keeps stays reads m)
    (h : Underway limit stays reads expected e) :
    Underway limit stays reads expected (e.move router buffer m) := by
  rcases h with hinv | ⟨a, rfl, hpeer, hcalling⟩
  · exact .inl (invariant_move hm hinv)
  rcases move_cases e router buffer hm
    with ⟨now, rfl⟩ | rfl | ⟨now, rfl⟩ | hquiet
  · rw [Exchange.move, hcalling.resume]
    exact .inr ⟨a, rfl, hpeer, hcalling⟩
  · rw [Exchange.move, hcalling.writeEvents]
    exact .inr ⟨a, rfl, hpeer, hcalling⟩
  · by_cases hdue : a.due ≤ now
    · exact .inl (hcalling.wake_due hpeer hdue)
    · rw [Exchange.move, hcalling.wake_early (Nat.lt_of_not_le hdue)]
      exact .inr ⟨a, rfl, hpeer, hcalling⟩
  · exact .inr ⟨a, rfl, hquiet.peer hpeer, hquiet.calling hcalling⟩

/-- When the handler has finished, the response is written. -/
theorem underway_wake {now : Time} (h : Underway limit stays reads expected e)
    (hdue : ∀ a ∈ expected, a.due ≤ now) :
    ExchangeInvariant limit stays reads expected
      (e.move router buffer (.wake now)).taken
      (e.move router buffer (.wake now)).task := by
  rcases h with hinv | ⟨a, rfl, hpeer, hcalling⟩
  · exact wake_invariant hinv
  · exact hcalling.wake_due hpeer (hdue a rfl)

/-- A property preserved by every move is preserved by runs. -/
theorem run_keeps {P : Exchange → Prop}
    (hmove : ∀ e m, Keeps stays reads m → P e → P (e.move router buffer m))
    {moves : List Exchange.Move} (hmoves : ∀ m ∈ moves, Keeps stays reads m)
    (h : P e) :
    P (e.run router buffer moves) := by
  induction moves generalizing e with
  | nil => exact h
  | cons m moves ih =>
      apply ih fun m' hm' => hmoves m' (List.mem_cons_of_mem m hm')
      exact hmove e m (hmoves m List.mem_cons_self) h

theorem invariant_run {moves : List Exchange.Move}
    (hmoves : ∀ m ∈ moves, Keeps stays reads m)
    (h : ExchangeInvariant limit stays reads expected e.taken e.task) :
    ExchangeInvariant limit stays reads expected
      (e.run router buffer moves).taken (e.run router buffer moves).task :=
  @run_keeps stays reads e router buffer
    (fun e => ExchangeInvariant limit stays reads expected e.taken e.task)
    (fun _ _ hm hinv => invariant_move hm hinv) moves hmoves h

theorem underway_run {moves : List Exchange.Move}
    (hmoves : ∀ m ∈ moves, Keeps stays reads m)
    (h : Underway limit stays reads expected e) :
    Underway limit stays reads expected (e.run router buffer moves) :=
  run_keeps (fun _ _ hm hunderway => underway_move hm hunderway) hmoves h

/-- A run during which the handler finishes. -/
theorem underway_run_due {moves : List Exchange.Move}
    (hmoves : ∀ m ∈ moves, Keeps stays reads m)
    (h : Underway limit stays reads expected e) {now : Time}
    (hwake : .wake now ∈ moves) (hdue : ∀ a ∈ expected, a.due ≤ now) :
    ExchangeInvariant limit stays reads expected
      (e.run router buffer moves).taken (e.run router buffer moves).task := by
  obtain ⟨early, late, rfl⟩ := List.append_of_mem hwake
  have hearly :
      Underway limit stays reads expected (e.run router buffer early) :=
    underway_run (fun m hm => hmoves m (List.mem_append_left _ hm)) h
  rw [Exchange.run, List.foldl_append, List.foldl_cons]
  apply invariant_run
    fun m hm => hmoves m (List.mem_append_right _ (List.mem_cons_of_mem _ hm))
  exact underway_wake hearly hdue

/-- The first frame has not been read. -/
structure Awaiting (limit : Nat) (stays reads : Prop)
    (e : Exchange) : Prop where
  phase : e.task.phase = .awaiting
  peer : Peer limit stays reads e.task.connection
  fresh : NothingSent e.taken e.task.connection

theorem awaiting_start (id : Nat) (context : Context) (room : Room) :
    Awaiting limit stays reads (.start id limit context room) :=
  ⟨rfl, ⟨rfl, fun _ => rfl, fun _ => rfl⟩, rfl, rfl⟩

theorem NothingSent.stop {c : ConnectionTask} {taken : Bytes}
    (h : NothingSent taken c.connection)
    (hpeer : Peer limit stays reads c.connection)
    (hexpected : ∀ a ∈ expected, ¬ a.Fits limit) :
    ExchangeInvariant limit stays reads expected taken c.stop := by
  refine ⟨hpeer.close, .refused rfl hexpected ?_⟩
  rw [ConnectionTask.stop, Connection.close_output]
  exact h.sent

/-- The first frame determines the response. -/
theorem Awaiting.frame (h : Awaiting limit stays reads e) (router : Room.Router)
    (buffer : Nat) {now : Time} {frame : Bytes}
    (hread : e.task.connection.read.1 = .frame frame) :
    ExchangeInvariant limit stays reads (e.expected? router now frame) e.taken
        (e.move router buffer (.resume now)).task ∨
      ∃ a, e.expected? router now frame = some a ∧ now < a.due ∧
        Peer limit stays reads
          (e.move router buffer (.resume now)).task.connection ∧
        Calling a e.taken (e.move router buffer (.resume now)).task := by
  have hemits := e.task.connection.read_emits
  generalize hresult : e.task.connection.read = result at hread hemits
  obtain ⟨incoming, connection⟩ := result
  obtain rfl : incoming = .frame frame := hread
  have hpeer : Peer limit stays reads connection :=
    h.peer.advances hemits.toAdvances
  have hfresh : NothingSent e.taken connection := h.fresh.emits hemits
  have hnone : ∀ a ∈ (none : Option DueResponse), ¬ a.Fits limit := by simp
  simp only [Exchange.move, Exchange.update, ConnectionTask.resume, h.phase,
    ConnectionTask.serveRequest, ConnectionTask.readRequest, hresult]
  cases hdecode : Request.decode frame with
  | error error =>
      have hexpected : e.expected? router now frame =
          some ⟨now, ConnectionTask.badRequest error, false⟩ := by
        rw [Exchange.expected?, hdecode]
      rw [hexpected]
      simp only [Nat.le_refl, if_true]
      exact .inl (answer_invariant hpeer hfresh [])
  | ok request =>
      simp only [Exchange.expected?, hdecode]
      generalize e.room.call router now e.task.context request = called
      obtain ⟨reply, room⟩ := called
      cases reply with
      | none => exact .inl (hfresh.stop hpeer hnone)
      | some reply =>
          cases reply with
          | broken message => exact .inl (hfresh.stop hpeer hnone)
          | never => exact .inl ⟨hpeer, .never rfl rfl hfresh.nothing⟩
          | ready delay response records =>
              simp only
              split
              · exact .inl (answer_invariant hpeer hfresh records)
              next hdelay =>
              exact .inr ⟨_, rfl, Nat.not_le.mp hdelay, hpeer, ⟨records, rfl⟩,
                hfresh.nothing, hfresh.closed⟩

/-- Without a frame the task keeps waiting or ends. -/
theorem Awaiting.noFrame (h : Awaiting limit stays reads e)
    (router : Room.Router) (buffer : Nat) {now : Time}
    (hread : ∀ frame, e.task.connection.read.1 ≠ .frame frame) :
    Awaiting limit stays reads (e.move router buffer (.resume now)) ∨
      ExchangeInvariant limit stays reads none e.taken
        (e.move router buffer (.resume now)).task := by
  have hemits := e.task.connection.read_emits
  generalize hresult : e.task.connection.read = result at hread hemits
  obtain ⟨incoming, connection⟩ := result
  have hpeer : Peer limit stays reads connection :=
    h.peer.advances hemits.toAdvances
  have hfresh : NothingSent e.taken connection := h.fresh.emits hemits
  cases incoming with
  | frame frame => exact absurd rfl (hread frame)
  | pending =>
      refine .inl ⟨?_, ?_, ?_⟩ <;>
        simp only [Exchange.move, Exchange.update, ConnectionTask.resume,
          h.phase, ConnectionTask.serveRequest,
            ConnectionTask.readRequest, hresult]
      · exact hpeer
      · exact hfresh
  | error error =>
      right
      simp only [Exchange.move, Exchange.update, ConnectionTask.resume, h.phase,
        ConnectionTask.serveRequest, ConnectionTask.readRequest, hresult]
      exact hfresh.stop hpeer (by simp)

/-- The first frame has not been read, or the exchange is under way. -/
def Begun (limit : Nat) (stays reads : Prop) (e : Exchange) : Prop :=
  Awaiting limit stays reads e ∨ ∃ expected,
    Underway limit stays reads expected e

theorem begun_move (hm : Keeps stays reads m) (h : Begun limit stays reads e) :
    Begun limit stays reads (e.move router buffer m) := by
  rcases h with hawaiting | ⟨expected, hunderway⟩
  · rcases move_cases e router buffer hm
      with ⟨now, rfl⟩ | rfl | ⟨now, rfl⟩ | hquiet
    · by_cases hframe : ∃ frame, e.task.connection.read.1 = .frame frame
      · obtain ⟨frame, hread⟩ := hframe
        rcases hawaiting.frame router buffer hread with
          hinv | ⟨a, hexpected, -, hpeer, hcalling⟩
        · exact .inr ⟨_, .inl hinv⟩
        · exact .inr ⟨_, .inr ⟨a, hexpected, hpeer, hcalling⟩⟩
      · have hnone : ∀ frame, e.task.connection.read.1 ≠ .frame frame :=
          fun frame hread => hframe ⟨frame, hread⟩
        rcases hawaiting.noFrame router buffer hnone with hstill | hinv
        · exact .inl hstill
        · exact .inr ⟨none, .inl hinv⟩
    · left
      rwa [Exchange.move, writeEvents_idle (by simp [hawaiting.phase])]
    · left
      rwa [Exchange.move,
        wake_idle (by simp only [ConnectionTask.due?, hawaiting.phase])]
    · refine .inl
        ⟨hquiet.phase.trans hawaiting.phase, hquiet.peer hawaiting.peer, ?_, ?_⟩
      · exact hquiet.output.trans hawaiting.fresh.nothing
      · exact hquiet.closed.trans hawaiting.fresh.closed
  · exact .inr ⟨expected, underway_move hm hunderway⟩

theorem Progress.phase_ne {taken : Bytes} {c : ConnectionTask}
    (h : Progress limit stays reads expected taken c) :
    c.phase ≠ .awaiting := by
  intro hawaiting
  cases h with
  | never hphase => simp [hphase] at hawaiting
  | refused hphase => simp [hphase] at hawaiting
  | cut hphase => simp [hphase] at hawaiting
  | answering hphase => simp [hphase] at hawaiting
  | @session a upgrade hphase =>
      rw [hawaiting] at hphase
      cases upgrade <;> simp [Upgrade.IsOpen] at hphase
  | last hphase =>
      rw [hawaiting] at hphase
      cases hphase

/-- Nothing is sent before the first frame is read. -/
theorem Begun.awaiting (h : Begun limit stays reads e)
    (hphase : e.task.phase = .awaiting) :
    Awaiting limit stays reads e := by
  rcases h with hawaiting | ⟨expected, hinv | ⟨a, -, -, hcalling⟩⟩
  · exact hawaiting
  · exact absurd hphase hinv.answered.phase_ne
  · obtain ⟨records, hcalls⟩ := hcalling.phase
    simp [hcalls] at hphase

theorem ExchangeInvariant.delivered
    (h : ExchangeInvariant limit stays reads expected e.taken e.task) :
    e.delivered = [] ∨ ∃ a ∈ expected, a.Fits limit ∧
      ∃ frames, a.FollowedBy frames ∧
        e.delivered <+: Frame.lines (a.response.bytes :: frames) := by
  have hdelivered : e.delivered <+: _ :=
    sent_prefix_output e.taken e.task.connection
  cases h.answered with
  | never hphase hexpected hnothing =>
    exact .inl (List.prefix_nil.mp (hnothing ▸ hdelivered))
  | refused hphase hexpected hnothing =>
    exact .inl (List.prefix_nil.mp (hnothing ▸ hdelivered))
  | cut hphase hexpected hfits hleft hpart =>
      exact .inr ⟨_, hexpected, hfits, [], .inl rfl, hdelivered.trans hpart⟩
  | answering hphase hexpected hfits hrests hclosed hline =>
      rw [hline] at hdelivered
      exact .inr ⟨_, hexpected, hfits, [], .inl rfl, hdelivered⟩
  | session hphase hexpected hopened =>
      obtain ⟨frames, hsent⟩ := hopened.responseSent
      exact .inr ⟨_, hexpected, hsent.fits, frames, hsent.follows,
        hdelivered.trans hsent.output⟩
  | last hphase hexpected hsent =>
      exact .inr ⟨_, hexpected, hsent.fits, _, hsent.follows,
        hdelivered.trans hsent.output⟩

/-- A client that stays receives the whole response. -/
theorem ExchangeInvariant.whole
    (h : ExchangeInvariant limit stays reads expected e.taken e.task)
    (hstays : stays) (hwritten : reads ∨ e.task.isOver = true)
    (ha : a ∈ expected) (hfits : a.Fits limit) :
    ∃ frames, a.FollowedBy frames ∧ a.line <+: e.delivered ∧
      e.delivered <+: Frame.lines (a.response.bytes :: frames) := by
  have hdelivered : e.delivered <+: _ :=
    sent_prefix_output e.taken e.task.connection
  cases h.answered with
  | never hphase hexpected => simp [hexpected] at ha
  | refused hphase hexpected => exact absurd hfits (hexpected a ha)
  | cut hphase hexpected hfits hleft => exact absurd hstays hleft
  | answering hphase hexpected hfits hrests =>
      rcases hwritten with hreads | hover
      · exact absurd hreads hrests
      · simp [ConnectionTask.isOver, hphase] at hover
  | session hphase hexpected hopened =>
      obtain rfl := Option.some.inj (hexpected.symm.trans ha)
      obtain ⟨frames, hsent⟩ := hopened.responseSent
      exact ⟨frames, hsent.follows, hsent.line, hdelivered.trans hsent.output⟩
  | last hphase hexpected hsent =>
      obtain rfl := Option.some.inj (hexpected.symm.trans ha)
      exact ⟨_, hsent.follows, hsent.line, hdelivered.trans hsent.output⟩

end

/-- The response theorem. The first frame determines the expected response, if
any. The bytes sent to the client are empty, or a prefix of this response
followed by frames of the upgraded protocol, and they are empty if the response
exceeds the limit. A response within the limit is sent completely to a client
that does not disconnect, once the task has ended, or, if the client keeps
reading, once the handler has finished. -/
theorem answered_once {id limit buffer : Nat} {context : Context} {room : Room}
    {router : Room.Router} {before after : List Exchange.Move} {e : Exchange}
    {now : Time} {frame : Bytes}
    (hbefore :
      Exchange.run router buffer (.start id limit context room) before = e)
    (hphase : e.task.phase = .awaiting)
    (hread : e.task.connection.read.1 = .frame frame) :
    let expected := e.expected? router now frame
    let last := (e.move router buffer (.resume now)).run router buffer after
    (last.delivered = [] ∨ ∃ a ∈ expected, a.Fits limit ∧
      ∃ frames, a.FollowedBy frames ∧
        last.delivered <+: Frame.lines (a.response.bytes :: frames)) ∧
    ∀ a ∈ expected, a.Fits limit → .leave ∉ before ++ after →
      last.task.isOver = true ∨
        .pauseReading ∉ before ++ after ∧
          (a.due ≤ now ∨ ∃ t, .wake t ∈ after ∧ a.due ≤ t) →
      ∃ frames, a.FollowedBy frames ∧ a.line <+: last.delivered ∧
        last.delivered <+: Frame.lines (a.response.bytes :: frames) := by
  intro expected last
  -- by cases on whether the client stays connected and reads
  generalize hstays : (.leave ∉ before ++ after) = stays
  generalize hreads : (.pauseReading ∉ before ++ after) = reads
  have hkeeps {moves : List Exchange.Move} (hmoves : moves ⊆ before ++ after) :
      ∀ m ∈ moves, Keeps stays reads m := by
    intro m hm
    subst hstays hreads
    exact ⟨fun h hleave => h (hleave ▸ hmoves hm),
      fun h hrest => h (hrest ▸ hmoves hm)⟩
  have hawaiting : Awaiting limit stays reads e := by
    have hbegun : Begun limit stays reads
        (Exchange.run router buffer (.start id limit context room) before) :=
      run_keeps (fun _ _ hm hbegun => begun_move hm hbegun)
        (hkeeps (List.subset_append_left before after))
          (.inl (awaiting_start id context room))
    rw [hbefore] at hbegun
    exact hbegun.awaiting hphase
  have hafter := hkeeps (List.subset_append_right before after)
  have hfirst := @Awaiting.frame _ _ _ _ hawaiting router buffer now frame hread
  have hunderway : Underway limit stays reads expected
      (e.move router buffer (.resume now)) := by
    rcases hfirst with hinv | ⟨a, hexpected, -, hpeer, hcalling⟩
    · exact .inl hinv
    · exact .inr ⟨a, hexpected, hpeer, hcalling⟩
  have hlast : Underway limit stays reads expected last :=
    underway_run hafter hunderway
  constructor
  · rcases hlast with hinv | ⟨a, -, -, hcalling⟩
    · exact hinv.delivered
    · exact .inl hcalling.fresh.sent
  intro a ha hfits hstaying hwhen
  rcases hwhen with hover | ⟨hreading, hdue | ⟨t, hwake, hdue⟩⟩
  · rcases hlast with hinv | ⟨b, -, -, hcalling⟩
    · exact hinv.whole hstaying (.inr hover) ha hfits
    · obtain ⟨records, hcalls⟩ := hcalling.phase
      simp [ConnectionTask.isOver, hcalls] at hover
  · rcases hfirst with hinv | ⟨b, hexpected, hlater, -⟩
    · have hinv :
          ExchangeInvariant limit stays reads expected last.taken last.task :=
        invariant_run hafter hinv
      exact hinv.whole hstaying (.inl hreading) ha hfits
    · obtain rfl := Option.some.inj (hexpected.symm.trans ha)
      exact absurd hdue (Nat.not_le.mpr hlater)
  · have hdue' : ∀ b ∈ expected, b.due ≤ t := by
      intro b hb
      obtain rfl := Option.some.inj (hb.symm.trans ha)
      exact hdue
    exact (underway_run_due hafter hunderway hwake hdue').whole hstaying
      (.inl hreading) ha hfits

/-- A router with one route, whose handler replies after a delay. -/
def sampleRouter : Room.Router :=
  let service : Service Room := fun _ _ room => (.ready 5 (.ok "hi") [], room)
  ((Mux.empty.handle "GET" "/hi" service).toOption).getD {}

def sampleFrame : Bytes :=
  Utf8.ofString "\x7b\"method\":\"GET\",\"url\":\"/hi\"\x7d"

/-- A client sends a request and a further frame before the response is
available. -/
def sampleExchange : Exchange :=
  .run sampleRouter 5 (.start 0 200 {} {})
    [.deliver (sampleFrame ++ [0x0A, 0x78, 0x0A])]

theorem sampleExchange_answered :
    (sampleExchange.expected? sampleRouter 0 sampleFrame).map
        (fun a => (a.due, a.response.bytes)) =
        some (5, (Response.ok "hi").bytes) ∧
      ((sampleExchange.move sampleRouter 5 (.resume 0)).run sampleRouter 5
        [.resume 1, .collect, .wake 5, .resume 5]).delivered =
          Frame.lines [(Response.ok "hi").bytes] := by
  have hexpected : (sampleExchange.expected? sampleRouter 0 sampleFrame).map
      (fun a => (a.due, a.response.bytes, a.streaming)) =
        some (5, (Response.ok "hi").bytes, false) := by
    decide +kernel
  obtain ⟨a, ha, hparts⟩ := Option.map_eq_some_iff.mp hexpected
  simp only [Prod.mk.injEq] at hparts
  obtain ⟨hdue, hbytes, hstreaming⟩ := hparts
  have hfits : a.Fits 200 := by
    rw [DueResponse.Fits, hbytes]
    decide +kernel
  obtain ⟨-, hanswered⟩ := @answered_once 0 200 5 {} {} sampleRouter
    [.deliver (sampleFrame ++ [0x0A, 0x78, 0x0A])]
      [.resume 1, .collect, .wake 5, .resume 5]
    sampleExchange 0 sampleFrame rfl rfl (by decide +kernel)
  obtain ⟨frames, hfollows, hline, hdelivered⟩ := hanswered a ha hfits (by simp)
    (.inr ⟨by simp, .inr ⟨5, by simp, hdue.le⟩⟩)
  have hnone : frames = [] := by
    rcases hfollows with hnone | ⟨upgrade, hopens, -⟩
    · exact hnone
    · exact absurd (hstreaming.symm.trans hopens.1) Bool.false_ne_true
  rw [hnone, hbytes] at hdelivered
  rw [DueResponse.line, hbytes] at hline
  refine ⟨?_, List.IsPrefix.eq_of_length_le hdelivered
    (List.IsPrefix.length_le hline)⟩
  rw [ha, Option.map_some, hdue, hbytes]

/-- The response to a frame that is not a request is lost if it exceeds the
frame limit, even if the client stays and keeps reading. -/
theorem long_answer_is_lost :
    ¬ ∀ limit router before after frame,
      let e := Exchange.run router 5 (.start 0 limit {} {}) before
      e.task.phase = .awaiting → e.task.connection.read.1 = .frame frame →
      ∀ a ∈ e.expected? router 0 frame, .leave ∉ before ++ after →
        .pauseReading ∉ before ++ after →
        a.due ≤ 0 →
        a.line <+:
          ((e.move router 5 (.resume 0)).run router 5 after).delivered := by
  intro h
  have hexpected : ((Exchange.run {} 5 (.start 0 60 {} {})
      [.deliver [0x78, 0x0A]]).expected? {} 0 [0x78]).map (·.due) = some 0 := by
    decide +kernel
  have hdelivered : (((Exchange.run {} 5 (.start 0 60 {} {})
      [.deliver [0x78, 0x0A]]).move {} 5
      (.resume 0)).run {} 5 []).delivered = [] := by
    decide +kernel
  obtain ⟨a, ha, hdue⟩ := Option.map_eq_some_iff.mp hexpected
  have hline :=
    h 60 {} [.deliver [0x78, 0x0A]] [] [0x78] rfl (by decide +kernel) a
      ha (by simp) (by simp) hdue.le
  rw [hdelivered, List.prefix_nil, DueResponse.line, Frame.lines_singleton]
    at hline
  exact absurd hline (by simp)

end Answering

end ChatRelay
