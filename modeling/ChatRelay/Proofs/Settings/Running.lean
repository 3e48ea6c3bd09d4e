import ChatRelay.Proofs.Chat.Handshake
import ChatRelay.Proofs.Server.Scheduling
import ChatRelay.Server.Listener
import ChatRelay.Settings.Settings
/-!
# Running with valid settings

Valid settings are positive, but may ask for more permits than a semaphore can
have, or for a channel of too great a capacity. With too many permits no
listener starts. With too great a capacity the program starts and serves calls,
but no session ever begins.
-/

namespace ChatRelay

namespace Channel

variable {α : Type} {capacity : Nat}

theorem create?_of_le (hpos : 0 < capacity) (hle : capacity ≤ maxCapacity) :
    create? (α := α) capacity = some { capacity } := by
  have hmax : max capacity 1 = capacity := Nat.max_eq_left hpos
  rw [create?, hmax, if_pos hle]

theorem create?_of_lt (hlt : maxCapacity < capacity) :
    create? (α := α) capacity = none := by
  have hmax : ¬ max capacity 1 ≤ maxCapacity := by omega
  rw [create?, if_neg hmax]

end Channel

namespace Session

variable {buffer : Nat}

/-- A session begins with an empty channel of the requested capacity. -/
theorem begin?_of_le (hpos : 0 < buffer) (hle : buffer ≤ Channel.maxCapacity)
    (user : Int) (room : Room) :
    ∃ session room', begin? user buffer room = some (session, room') ∧
      session.user = user ∧
      room'.bus.channels[session.subscription.channel]? =
        some { capacity := buffer } := by
  let joined := room.bus.insertChannel { capacity := buffer }
  have hbegin : begin? user buffer room = some (⟨user, joined.1⟩,
      { room with bus := joined.2 }.record [.newSubscriber joined.1.slot]) := by
    rw [begin?, Bus.subscription?_eq, Channel.create?_of_le hpos hle]
    rfl
  exact ⟨_, _, hbegin, rfl, List.getElem?_concat_length⟩

theorem begin?_of_lt (hlt : Channel.maxCapacity < buffer) (user : Int)
    (room : Room) :
    begin? user buffer room = none := by
  rw [begin?, Bus.subscription?_eq, Channel.create?_of_lt hlt]
  rfl

end Session

namespace Connections

variable {router : Room.Router} {buffer : Nat} {conns : Connections}

def Sessionless (conns : Connections) : Prop :=
  ∀ g ∈ conns.clients, g.session? = none

/-- Without a possible channel no step begins a session. -/
theorem session?_perform (hquiet : router.Quiet)
    (hlt : Channel.maxCapacity < buffer) (step : AtomicStep)
    {c : ConnectionTask} (hnone : c.session? = none) (room : Room) :
    (c.perform router buffer step room).1.session? = none := by
  have heffect := ConnectionTask.perform_effect hquiet buffer step c room
  rw [hnone] at heffect
  cases hafter : (c.perform router buffer step room).1.session? with
  | none => rfl
  | some session =>
      rw [hafter] at heffect
      cases heffect with
      | subscribed hbus =>
          rw [Bus.subscription?_eq, Channel.create?_of_lt hlt] at hbus
          contradiction

theorem Sessionless.move (h : conns.Sessionless) (hquiet : router.Quiet)
    (hlt : Channel.maxCapacity < buffer) (move : Move) :
    (conns.move router buffer move).Sessionless := by
  intro g hg
  cases move with
  | connect limit context =>
      rcases List.mem_append.mp hg with hold | hnew
      · exact h g hold
      · rw [List.mem_singleton.mp hnew]
        rfl
  | socketAction i x =>
      have hmodified : g ∈ conns.clients.modify i (·.socketAction x) := hg
      obtain ⟨j, hj⟩ := List.mem_iff_getElem?.mp hmodified
      rw [List.getElem?_modify] at hj
      obtain ⟨g', hg', rfl⟩ := Option.map_eq_some_iff.mp hj
      have hnone := h g' (List.mem_of_getElem? hg')
      split
      · rw [Client.session?, g'.task_socketAction x]
        exact hnone
      · exact hnone
  | perform i step =>
      rw [Connections.move, Connections.perform] at hg
      split at hg
      · exact h g hg
      · next g' hg' =>
          rcases List.mem_or_eq_of_mem_set hg with hold | rfl
          · exact h g hold
          · exact session?_perform hquiet hlt step
              (h g' (List.mem_of_getElem? hg')) conns.room
  | publish event =>
      obtain ⟨g', hg', rfl⟩ := List.mem_map.mp hg
      have hnone := h g' hg'
      rw [Client.offer, hnone]
      exact hnone
  | changeRoom room => exact h g hg

end Connections

/-- Without a possible channel no client of a hub ever has a session. -/
theorem Hub.Reached.sessionless {start hub : Hub} (h : start.Reached hub)
    (hquiet : start.router.Quiet) (hlt : Channel.maxCapacity < start.buffer) :
    ∀ c ∈ hub.tasks, c.session? = none := by
  obtain ⟨moves, hmoves⟩ := h.conns
  obtain ⟨-, htasks⟩ := ServerState.mk.inj hmoves
  have hnobody : Connections.Sessionless { room := start.room } :=
    fun _ hg => nomatch hg
  have hrun :=
    Connections.run_keeps (fun _ move h => h.move hquiet hlt move) hnobody moves
  intro c hc
  rw [← htasks] at hc
  obtain ⟨g, hg, rfl⟩ := List.mem_map.mp hc
  exact hrun g hg

namespace Listener

variable {limit : Option Nat} {l : Listener}

theorem begin?_isSome :
    (begin? limit).isSome ↔ ∀ n ∈ limit, n ≤ maxPermits := by
  unfold begin?
  cases limit with
  | none => simp
  | some n => simp

/-- A listener starts if and only if the number of permits is possible. -/
theorem start?_isSome :
    (start? limit).isSome ↔ ∀ n ∈ limit, n ≤ maxPermits := by
  rw [start?, Option.isSome_map, begin?_isSome]

/-- The first connection is admitted if the limit is positive. -/
theorem isReady_of_start? (hpos : limit ≠ some 0) (h : start? limit = some l) :
    l.isReady = true := by
  obtain ⟨l₀, hbegin, rfl⟩ := Option.map_eq_some_iff.mp h
  unfold begin? at hbegin
  split at hbegin
  · obtain rfl := Option.some.inj hbegin
    cases limit with
    | none => decide
    | some n =>
        have hne : n ≠ 0 := fun hzero => hpos (congrArg some hzero)
        obtain ⟨free, rfl⟩ := Nat.exists_eq_succ_of_ne_zero hne
        rfl
  · contradiction

end Listener

namespace Settings

/-- The hub of a program that starts with some settings, around a room. -/
def firstHub (s : Settings) (hashing : Hashing) (counter : String)
    (room : Room) : Hub where
  room := room
  router := Chat.router hashing counter s.timeout
  buffer := s.chatBuffer
  limit := s.maxFrameLength

variable {s : Settings}

theorem validate_eq_ok_iff :
    s.validate = .ok s ↔ 0 < s.timeout ∧ 0 < s.maxFrameLength ∧
    0 < s.chatBuffer ∧ s.maxConnections ≠ some 0 := by
  unfold validate
  split
  · next hzero => simp [hzero]
  split
  · next hzero => simp [hzero]
  split
  · next hzero => simp [hzero]
  split
  · next hzero => simp [hzero]
  · next htimeout hlength hbuffer hconnections =>
      simp only [true_iff]
      exact ⟨Nat.pos_of_ne_zero htimeout, Nat.pos_of_ne_zero hlength,
        Nat.pos_of_ne_zero hbuffer, hconnections⟩

/-- With valid settings a listener starts if and only if the number of permits
is possible, and then it can accept a first connection. A session begins, with a
channel of the configured capacity, if and only if such a channel is possible,
and then its frames are read. Where it is not possible, every upgraded
connection ends, and in the hub of these settings no client ever has a session,
after any sequence of inputs. -/
theorem valid_settings_run_iff (hvalid : s.validate = .ok s) :
    ((Listener.start? s.maxConnections).isSome ↔
      ∀ n ∈ s.maxConnections, n ≤ Listener.maxPermits) ∧
    (∀ l, Listener.start? s.maxConnections = some l → l.isReady = true) ∧
    (s.chatBuffer ≤ Channel.maxCapacity → ∀ user room, ∃ session room',
      Session.begin? user s.chatBuffer room = some (session, room') ∧
      session.user = user ∧
      room'.bus.channels[session.subscription.channel]? =
        some { capacity := s.chatBuffer } ∧
      ∀ now c, ConnectionTask.runUpgrade now s.chatBuffer (some (.chat user))
        true c room = ConnectionTask.readFrames now session true
          { c with
            connection := c.connection.hold, phase := .chatting session true }
          room') ∧
    (Channel.maxCapacity < s.chatBuffer →
      (∀ user room, Session.begin? user s.chatBuffer room = none) ∧
      (∀ now user c room,
        (ConnectionTask.runUpgrade now s.chatBuffer (some (.chat user)) true c
          room).1.isOver = true) ∧
      ∀ hashing counter room hub,
        (s.firstHub hashing counter room).Reached hub →
        ∀ c ∈ hub.tasks, c.session? = none) := by
  obtain ⟨-, -, hbuffer, hconnections⟩ := validate_eq_ok_iff.mp hvalid
  refine
    ⟨Listener.start?_isSome, fun l => Listener.isReady_of_start? hconnections,
      fun hle user room => ?_, fun hlt => ⟨Session.begin?_of_lt hlt, ?_, ?_⟩⟩
  · obtain ⟨session, room', hbegin, huser, hchannel⟩ :=
      Session.begin?_of_le hbuffer hle user room
    exact ⟨session, room', hbegin, huser, hchannel,
      fun now c => ConnectionTask.runUpgrade_chat hbegin c⟩
  · intro now user c room
    rw [ConnectionTask.runUpgrade_chat_none
      (Session.begin?_of_lt hlt user room)]
    rfl
  · intro hashing counter room hub hreached
    have hquiet : (s.firstHub hashing counter room).router.Quiet := by
      simp only [firstHub]
      exact (Chat.chatRouter_router hashing counter s.timeout).quiet
    exact hreached.sessionless hquiet hlt

def sampleSettings : Settings := { maxConnections := some 2, chatBuffer := 1 }

theorem sampleSettings_run :
    sampleSettings.validate = .ok sampleSettings ∧
      (Listener.start? sampleSettings.maxConnections).isSome = true ∧
      ∃ session room', Session.begin? 7 sampleSettings.chatBuffer {} =
        some (session, room') ∧
        session.user = 7 ∧
        room'.bus.channels[session.subscription.channel]? =
          some { capacity := 1 } := by
  have hvalid : sampleSettings.validate = .ok sampleSettings := by decide
  obtain ⟨hstarts, -, hbegins, -⟩ := valid_settings_run_iff hvalid
  obtain ⟨session, room', hbegin, huser, hchannel, -⟩ :=
    hbegins (by decide +kernel) 7 {}
  exact ⟨hvalid, hstarts.mpr (by decide +kernel), session, room', hbegin,
    huser, hchannel⟩

/-- Valid settings that ask for one permit and one channel slot more than
possible. -/
theorem valid_settings_cannot_run :
    let s : Settings :=
      { maxConnections := some (Listener.maxPermits + 1)
        chatBuffer := Channel.maxCapacity + 1 }
    s.validate = .ok s ∧ Listener.start? s.maxConnections = none ∧
      Session.begin? 7 s.chatBuffer {} = none := by
  intro s
  refine ⟨by decide, ?_, ?_⟩
  · refine Option.not_isSome_iff_eq_none.mp fun hstarts => ?_
    exact Nat.not_succ_le_self _ (Listener.start?_isSome.mp hstarts _ rfl)
  · exact Session.begin?_of_lt (Nat.lt_succ_self _) 7 {}

end Settings

end ChatRelay
