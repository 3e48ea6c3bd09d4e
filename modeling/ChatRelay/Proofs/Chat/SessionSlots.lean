import ChatRelay.Proofs.Chat.ClientStages
/-!
# Slots of sessions

In every run of the chat each client is in some stage, and the taken slots of
the bus are those of the open sessions. A session has its slot from when it
subscribes until its reader ends or its task is dropped, even if its writer
ended before. A client whose handshake fails never has one.
-/

namespace ChatRelay

namespace Client

variable {router : Room.Router} {buffer : Nat} {step : AtomicStep}
    {g g' : Client} {room room' : Room}
  {event : Event} {published : List Event}

/-- The request record and the output of a client are unchanged. -/
structure SameRecord (g g' : Client) : Prop where
  phase : g'.task.phase = g.task.phase
  delivered : g'.delivered = g.delivered
  output : g'.output = g.output
  request : g'.request = g.request
  since : g'.since = g.since
  left : g'.left = g.left
  accepted : g'.accepted = g.accepted

theorem SameRecord.refl (g : Client) : g.SameRecord g :=
  ⟨rfl, rfl, rfl, rfl, rfl, rfl, rfl⟩

/-- An action of a client on its socket changes no record. -/
theorem sameRecord_socketAction (g : Client) (x : SocketAction) :
    g.SameRecord (g.socketAction x) := by
  cases x with
  | leave =>
      refine ⟨rfl, ?_, ?_, rfl, rfl, rfl, rfl⟩
      · exact List.append_nil g.delivered
      · change g.delivered ++ ([] ++ g.task.connection.writer.waiting) = _
        rw [List.nil_append, Client.delivered, List.append_assoc]
        rfl
  | collect =>
      cases hreading : g.task.connection.socket.reading <;>
        constructor <;>
        simp [Client.socketAction, Client.onSocket, Client.delivered,
          Client.output, Connection.output, Connection.sent,
            Socket.collect, hreading]
  | deliver bytes =>
      refine ⟨rfl, ?_, ?_, rfl, rfl, rfl, rfl⟩ <;>
        simp only [Client.socketAction, Client.onSocket, Client.delivered,
          Client.output, Connection.output, Connection.sent, Socket.deliver] <;>
        split <;> rfl
  | finish => exact ⟨rfl, rfl, rfl, rfl, rfl, rfl, rfl⟩
  | pauseReading => exact ⟨rfl, rfl, rfl, rfl, rfl, rfl, rfl⟩
  | resumeReading => exact ⟨rfl, rfl, rfl, rfl, rfl, rfl, rfl⟩

theorem SameRecord.session? (h : g.SameRecord g') :
    g'.session? = g.session? := by
  simp only [Client.session?, ConnectionTask.session?, h.phase]

theorem NoSession.sameRecord (h : g.NoSession) (hsame : g.SameRecord g') :
    g'.NoSession :=
  ⟨hsame.since.trans h.since, hsame.left.trans h.left,
    hsame.accepted.trans h.accepted⟩

theorem HandshakeAccepted.sameRecord (h : g.HandshakeAccepted)
    (hsame : g.SameRecord g') : g'.HandshakeAccepted := by
  obtain ⟨attempt, user, hrequest, haccepted⟩ := h
  exact ⟨attempt, user, hsame.request.trans hrequest, haccepted⟩

theorem UpgradesToWelcome.sameRecord {upgrade : Option Upgrade} {answer : Bytes}
    (h : g.UpgradesToWelcome upgrade answer) (hsame : g.SameRecord g') :
    g'.UpgradesToWelcome upgrade answer := by
  intro offered hoffered
  obtain ⟨hwelcome, hchat, hinvited⟩ := h offered hoffered
  exact ⟨hwelcome, hchat, hinvited.sameRecord hsame⟩

theorem SessionOutput.sameRecord (h : g.SessionOutput)
    (hsame : g.SameRecord g') : g'.SessionOutput :=
  ⟨h.invited.sameRecord hsame, hsame.since ▸ h.begun,
    hsame.delivered ▸ h.welcome, hsame.accepted ▸ hsame.output ▸ h.output⟩

/-- A step that leaves the record and the channel of a client alone keeps its
stage. -/
theorem Stage.sameRecord (h : g.Stage room) (hsame : g.SameRecord g')
    (hwaiting : ∀ session, g.session? = some session →
      session.waiting room' = session.waiting room) : g'.Stage room' := by
  have hphase := hsame.phase
  cases h with
  | awaiting hold hfresh hnothing =>
      exact .awaiting (hphase.trans hold) (hfresh.sameRecord hsame)
        (hsame.output.trans hnothing)
  | calling hold hfresh hnothing hexpects =>
      exact .calling (hphase.trans hold) (hfresh.sameRecord hsame)
        (hsame.output.trans hnothing) (hexpects.sameRecord hsame)
  | answering hold hfresh hline hexpects =>
      exact .answering (hphase.trans hold) (hfresh.sameRecord hsame)
        (hsame.output.trans hline) (hexpects.sameRecord hsame)
  | refused hold hfresh hpart =>
      exact .refused (hphase.trans hold) (hfresh.sameRecord hsame)
        (hsame.output ▸ hpart)
  | @writing session written waiting hold hleft haccepted hevents
    hout houtput =>
      refine .writing (hphase.trans hold) (hsame.left.trans hleft)
        (hsame.accepted.trans haccepted) ?_ (hout.sameRecord hsame)
          (hsame.output.trans houtput)
      rw [hwaiting session (session?_of_chatting hold), hevents]
  | writerDropped hold hleft hout =>
      exact .writerDropped (hphase.trans hold) (hsame.left.trans hleft)
        (hout.sameRecord hsame)
  | closed hold hleft hout =>
      exact .closed (hphase ▸ hold) (hsame.left ▸ hleft) (hout.sameRecord hsame)

/-- The output of a session remains valid when its channel has accepted more. -/
theorem SessionOutput.accept (h : g.SessionOutput) (e : Event × Nat) :
    SessionOutput { g with accepted := g.accepted ++ [e] } := by
  refine ⟨h.invited, h.begun, h.welcome, h.output.trans ?_⟩
  rw [frames_append, ← List.cons_append, Frame.lines_append]
  exact List.prefix_append _ _

/-- The stage remains valid when an event is published. -/
theorem Stage.offer (h : g.Stage room) (hsound : room.bus.Sound) (event : Event)
    (number : Nat) :
    (g.offer room (room.publish event).2 event number).Stage
      (room.publish event).2 := by
  unfold Client.offer
  split
  · next hnone =>
    apply h.sameRecord (.refl g)
    intro session hsession
    exact nomatch hnone.symm.trans hsession
  next session hsession =>
  split
  · next htook =>
    cases h with
    | awaiting hphase =>
      exact nomatch hsession.symm.trans (session?_of_phase hphase rfl)
    | calling hphase =>
      exact nomatch hsession.symm.trans (session?_of_phase hphase rfl)
    | answering hphase =>
      exact nomatch hsession.symm.trans (session?_of_phase hphase rfl)
    | refused hphase =>
      exact nomatch hsession.symm.trans (session?_of_phase hphase rfl)
    | @writing session' written waiting hphase hleft haccepted hevents
      hout houtput =>
        obtain rfl :=
          Option.some.inj (hsession.symm.trans (session?_of_chatting hphase))
        refine @Stage.writing _ _ session written (waiting ++ [(event, number)])
          hphase hleft ?_ ?_ (hout.accept _) houtput
        · rw [haccepted, List.append_assoc]
        · rw [htook, hevents, List.map_append]
          rfl
    | writerDropped hphase hleft hout =>
      exact .writerDropped hphase hleft (hout.accept _)
    | closed hphase hleft hout =>
        rcases hphase with hended | ⟨due, hstopping⟩
        · exact nomatch hsession.symm.trans (session?_of_phase hended rfl)
        · exact nomatch hsession.symm.trans (session?_of_phase hstopping rfl)
  · next hpassed =>
    apply h.sameRecord (.refl g)
    intro other hother
    obtain rfl := Option.some.inj (hsession.symm.trans hother)
    exact (Session.waiting_publish hsound session event).resolve_right hpassed

/-- A client has a session from when it began until it ended. -/
theorem Stage.session_iff (h : g.Stage room) :
    g.session?.isSome ↔ g.since.isSome ∧ g.left = none := by
  have hfree {phase : Phase} (hphase : g.task.phase = phase)
      (hnone : phase.session? = none)
      (hfree : ¬ (g.since.isSome ∧ g.left = none)) :
      g.session?.isSome ↔ g.since.isSome ∧ g.left = none := by
    rw [session?_of_phase hphase hnone]
    exact iff_of_false Bool.false_ne_true hfree
  have hfresh (hfresh : g.NoSession) : ¬ (g.since.isSome ∧ g.left = none) := by
    rw [hfresh.since]
    exact fun hbegun => Bool.false_ne_true hbegun.1
  have hheld {session : Session} {writing : Bool}
      (hphase : g.task.phase = .chatting session writing)
        (hleft : g.left = none)
      (hout : g.SessionOutput) : g.session?.isSome ↔
        g.since.isSome ∧ g.left = none := by
    rw [session?_of_chatting hphase]
    exact iff_of_true rfl ⟨hout.begun, hleft⟩
  cases h with
  | awaiting hphase hnone => exact hfree hphase rfl (hfresh hnone)
  | calling hphase hnone => exact hfree hphase rfl (hfresh hnone)
  | answering hphase hnone => exact hfree hphase rfl (hfresh hnone)
  | refused hphase hnone => exact hfree hphase rfl (hfresh hnone)
  | writing hphase hleft _ _ hout => exact hheld hphase hleft hout
  | writerDropped hphase hleft hout => exact hheld hphase hleft hout
  | closed hphase hleft =>
      have hgone : ¬ (g.since.isSome ∧ g.left = none) := by
        rintro ⟨-, hnone⟩
        rw [hnone] at hleft
        exact Bool.false_ne_true hleft
      rcases hphase with hended | ⟨due, hstopping⟩
      · exact hfree hended rfl hgone
      · exact hfree hstopping rfl hgone

/-- A client has a session, or never had one. -/
theorem Stage.sessionOutput_or_noSession (h : g.Stage room) :
    g.SessionOutput ∨ g.NoSession := by
  cases h with
  | awaiting _ hfresh => exact .inr hfresh
  | calling _ hfresh => exact .inr hfresh
  | answering _ hfresh => exact .inr hfresh
  | refused _ hfresh => exact .inr hfresh
  | writing _ _ _ _ hout => exact .inl hout
  | writerDropped _ _ hout => exact .inl hout
  | closed _ _ hout => exact .inl hout

/-- A client whose handshake failed never has a session. -/
theorem Stage.rejected (h : g.Stage room) {attempt : RequestRecord}
    (hrequest : g.request = some attempt) (hrejected : attempt.Rejected) :
    g.since = none ∧ g.session? = none := by
  rcases h.sessionOutput_or_noSession with hout | hfresh
  · obtain ⟨accepted, user, hsame, haccepted⟩ := hout.invited
    obtain rfl := Option.some.inj (hsame.symm.trans hrequest)
    exact absurd hrejected haccepted.not_rejected
  · refine ⟨hfresh.since, Option.not_isSome_iff_eq_none.mp fun hsome => ?_⟩
    have hbegun := (h.session_iff.mp hsome).1
    rw [hfresh.since] at hbegun
    exact Bool.false_ne_true hbegun

/-- The channel of a session accepted events in the order of publishing, none
from before it subscribed or after the session ended. -/
structure AcceptedInOrder (published : List Event) (g : Client) : Prop where
  order : g.accepted.Sublist published.zipIdx
  since : ∀ first, g.since = some first →
    first ≤ published.length ∧ ∀ e ∈ g.accepted, first ≤ e.2
  left : ∀ last, g.left = some last → ∀ e ∈ g.accepted, e.2 < last

theorem AcceptedInOrder.past (h : g.AcceptedInOrder published) :
    ∀ e ∈ g.accepted, e.2 < published.length := by
  intro e he
  have hat := List.mem_zipIdx_iff_getElem?.mp (h.order.subset he)
  exact (List.getElem?_eq_some_iff.mp hat).1

theorem AcceptedInOrder.sameRecord (h : g.AcceptedInOrder published)
    (hsame : g.SameRecord g') : g'.AcceptedInOrder published := by
  refine ⟨hsame.accepted ▸ h.order, fun first hfirst => ?_,
    fun last hlast => ?_⟩
  · rw [hsame.accepted]
    exact h.since first (hsame.since ▸ hfirst)
  · rw [hsame.accepted]
    exact h.left last (hsame.left ▸ hlast)

theorem AcceptedInOrder.perform (h : g.AcceptedInOrder published)
    (hstage : g.Stage room)
    (hafter :
      (g.perform router buffer step room published.length).Stage room') :
    (g.perform router buffer step room published.length).AcceptedInOrder
      published := by
  refine ⟨h.order, fun first hfirst => ?_, fun last hlast => ?_⟩
  · change (if g.session?.isNone && _ then some published.length else g.since) =
      _ at hfirst
    split at hfirst
    · next hbegins =>
      -- without a session nothing was accepted
      obtain rfl := Option.some.inj hfirst
      refine ⟨Nat.le_refl _, fun e he => ?_⟩
      rcases hstage.sessionOutput_or_noSession with hout | hfresh
      · rw [Bool.and_eq_true, Option.isNone_iff_eq_none] at hbegins
        have hheld := hafter.session_iff.mp hbegins.2
        have hleft : g.left = none := by
          simpa [Client.perform, hbegins.1] using hheld.2
        have hsome := hstage.session_iff.mpr ⟨hout.begun, hleft⟩
        rw [hbegins.1] at hsome
        exact absurd hsome Bool.false_ne_true
      · rw [show (g.perform router buffer step room published.length).accepted =
          [] from hfresh.accepted] at he
        exact absurd he List.not_mem_nil
    · exact h.since first hfirst
  · change (if g.session?.isSome && _ then some published.length else g.left) =
      _ at hlast
    split at hlast
    · obtain rfl := Option.some.inj hlast
      exact h.past
    · exact h.left last hlast

theorem AcceptedInOrder.publish (h : g.AcceptedInOrder published)
    (event : Event) :
    g.AcceptedInOrder (published ++ [event]) := by
  refine ⟨?_, fun first hfirst => ?_, h.left⟩
  · rw [List.zipIdx_append]
    exact h.order.trans (List.sublist_append_left _ _)
  · obtain ⟨hle, hall⟩ := h.since first hfirst
    rw [List.length_append]
    exact ⟨Nat.le_add_right_of_le hle, hall⟩

theorem AcceptedInOrder.offer (h : g.AcceptedInOrder published)
    (hstage : g.Stage room) (room' : Room) (event : Event) :
    (g.offer room room' event published.length).AcceptedInOrder
      (published ++ [event]) := by
  have hsame := h.publish event
  unfold Client.offer
  split
  · exact hsame
  next session hsession =>
  split
  · have hheld := hstage.session_iff.mp (Option.isSome_of_mem hsession)
    refine ⟨?_, fun first hfirst => ?_, fun last hlast => ?_⟩
    · rw [List.zipIdx_append]
      refine h.order.append ?_
      simp
    · obtain ⟨hle, hall⟩ := hsame.since first hfirst
      refine ⟨hle, fun e he => ?_⟩
      rcases List.mem_append.mp he with hold | hnew
      · exact hall e hold
      · rw [List.mem_singleton.mp hnew]
        exact (h.since first hfirst).1
    · exact nomatch hheld.2.symm.trans hlast
  · exact hsame

end Client

namespace Connections

variable {router : Room.Router} {buffer : Nat} {conns : Connections}

/-- Every client is in some stage, and the taken slots are those of the
sessions. -/
structure Invariant (conns : Connections) : Prop where
  slotsHeld : SlotsHeld conns.room.bus (conns.clients.map Client.session?)
  stage : ∀ g ∈ conns.clients, g.Stage conns.room
  acceptedInOrder : ∀ g ∈ conns.clients, g.AcceptedInOrder conns.published

theorem Invariant.start {room : Room} (hbus : room.bus = {}) :
    Invariant { room } := by
  refine ⟨?_, by simp, by simp⟩
  rw [hbus]
  exact .empty

theorem Invariant.connect (h : conns.Invariant) (limit : Nat)
    (context : Context) :
    Invariant
      { conns with clients := conns.clients ++ [newClient limit context] } := by
  have hfresh : (newClient limit context).NoSession := ⟨rfl, rfl, rfl⟩
  refine ⟨?_, fun g hg => ?_, fun g hg => ?_⟩
  · rw [List.map_append]
    exact h.slotsHeld.concat_none
  · rcases List.mem_append.mp hg with hold | hnew
    · exact h.stage g hold
    · rw [List.mem_singleton.mp hnew]
      exact .awaiting rfl hfresh rfl
  · rcases List.mem_append.mp hg with hold | hnew
    · exact h.acceptedInOrder g hold
    · rw [List.mem_singleton.mp hnew]
      exact ⟨List.nil_sublist _, nofun, nofun⟩

theorem Invariant.socketAction (h : conns.Invariant) (i : Nat)
    (x : SocketAction) :
    Invariant
      { conns with clients := conns.clients.modify i (·.socketAction x) } := by
  have halike : ∀ g ∈ conns.clients.modify i (·.socketAction x),
      ∃ old ∈ conns.clients, old.SameRecord g := by
    intro g hg
    obtain ⟨j, hj⟩ := List.mem_iff_getElem?.mp hg
    rw [List.getElem?_modify] at hj
    obtain ⟨old, hold, rfl⟩ := Option.map_eq_some_iff.mp hj
    refine ⟨old, List.mem_of_getElem? hold, ?_⟩
    split
    · exact old.sameRecord_socketAction x
    · exact .refl old
  refine ⟨?_, fun g hg => ?_, fun g hg => ?_⟩
  · have hsessions :
        (conns.clients.modify i (·.socketAction x)).map Client.session? =
        conns.clients.map Client.session? := by
      apply List.ext_getElem?
      intro j
      rw [List.getElem?_map, List.getElem?_map, List.getElem?_modify]
      cases conns.clients[j]? with
      | none => rfl
      | some g =>
          apply congrArg some
          split
          · exact (g.sameRecord_socketAction x).session?
          · rfl
    rw [hsessions]
    exact h.slotsHeld
  · obtain ⟨old, hold, hsame⟩ := halike g hg
    exact (h.stage old hold).sameRecord hsame fun _ _ => rfl
  · obtain ⟨old, hold, hsame⟩ := halike g hg
    exact (h.acceptedInOrder old hold).sameRecord hsame

theorem Invariant.changeRoom (h : conns.Invariant) (room : Room) :
    Invariant { conns with room := { room with bus := conns.room.bus } } :=
  ⟨h.slotsHeld, fun g hg => (h.stage g hg).sameRecord (.refl g) fun _ _ => rfl,
    h.acceptedInOrder⟩

theorem Invariant.publish (h : conns.Invariant) (event : Event) :
    (conns.publish event).Invariant := by
  refine ⟨?_, fun g hg => ?_, fun g hg => ?_⟩
  · have hsessions : (conns.publish event).clients.map Client.session? =
        conns.clients.map Client.session? := by
      rw [Connections.publish, List.map_map]
      apply List.map_congr_left
      intro g _
      unfold Function.comp Client.offer
      split
      · rfl
      · split <;> rfl
    rw [hsessions]
    change SlotsHeld (conns.room.publish event).2.bus _
    rw [(conns.room.publishing event).bus]
    split
    · exact h.slotsHeld.congr rfl (Bus.sendAll_length _ _ _ _)
    · exact h.slotsHeld
  · obtain ⟨old, hold, rfl⟩ := List.mem_map.mp hg
    exact (h.stage old hold).offer h.slotsHeld.sound event _
  · obtain ⟨old, hold, rfl⟩ := List.mem_map.mp hg
    exact (h.acceptedInOrder old hold).offer (h.stage old hold) _ event

theorem Invariant.perform (h : conns.Invariant)
    (hrouter : Chat.ChatRouter router) (buffer i : Nat) (step : AtomicStep) :
    (conns.perform router buffer i step).Invariant := by
  unfold Connections.perform
  split
  · exact h
  next g hg =>
  have hmem := List.mem_of_getElem? hg
  have hat : (conns.clients.map Client.session?)[i]? = some g.session? := by
    rw [List.getElem?_map, hg, Option.map_some]
  have heffect := g.task.perform_effect hrouter.quiet buffer step conns.room
  have hstage :=
    (h.stage g hmem).perform hrouter h.slotsHeld.sound buffer
      conns.published.length step
  refine ⟨?_, fun g' hg' => ?_, fun g' hg' => ?_⟩
  · rw [List.map_set]
    exact h.slotsHeld.effect hat heffect
  · obtain ⟨j, hj⟩ := List.mem_iff_getElem?.mp hg'
    rw [List.getElem?_set] at hj
    split at hj
    · next heq =>
      split at hj
      · obtain rfl := Option.some.inj hj
        exact hstage
      · exact nomatch hj
    · next hne =>
      apply (h.stage g' (List.mem_of_getElem? hj)).sameRecord (.refl g')
      intro session hsession
      apply Session.waiting_congr
      refine h.slotsHeld.channel_of_other hat ?_ hne heffect
      rw [List.getElem?_map, hj, Option.map_some, hsession]
  · rcases List.mem_or_eq_of_mem_set hg' with hold | rfl
    · exact h.acceptedInOrder g' hold
    · exact (h.acceptedInOrder g hmem).perform (h.stage g hmem) hstage

theorem Invariant.move (h : conns.Invariant) (hrouter : Chat.ChatRouter router)
    (move : Move) :
    (conns.move router buffer move).Invariant := by
  cases move with
  | connect limit context => exact h.connect limit context
  | socketAction i x => exact h.socketAction i x
  | perform i step => exact h.perform hrouter buffer i step
  | publish event => exact h.publish event
  | changeRoom room => exact h.changeRoom room

theorem invariant_run (hrouter : Chat.ChatRouter router) {room : Room}
    (hbus : room.bus = {}) (moves : List Move) :
    (run router buffer { room } moves).Invariant :=
  run_keeps (fun _ move h => h.move hrouter move) (.start hbus) moves

/-- In every run of the chat the taken slots are those of the open sessions, one
for each, and each slot holds the channel of its own session. A session is open
from when it subscribed until its reader ended or its task was dropped. A client
whose handshake failed never subscribed, and when no session is open no slot is
taken. -/
theorem slots_are_sessions (hashing : Hashing) (counter : String)
    (timeout : Time) (buffer : Nat) {room : Room}
    (hbus : room.bus = {}) (moves : List Move) :
    let conns := run (Chat.router hashing counter timeout) buffer { room } moves
    (∀ slot channel, conns.room.bus.slots[slot]? = some (some channel) ↔
      ∃ g ∈ conns.clients, ∃ session, g.session? = some session ∧
        session.subscription = ⟨slot, channel⟩) ∧
    (∀ (i j : Nat) (g h : Client) (s t : Session), conns.clients[i]? = some g →
      conns.clients[j]? = some h → g.session? = some s → h.session? = some t →
      s.subscription.slot = t.subscription.slot ∨
        s.subscription.channel = t.subscription.channel → i = j) ∧
    (∀ g ∈ conns.clients, g.session?.isSome ↔ g.since.isSome ∧ g.left = none) ∧
    (∀ g ∈ conns.clients, ∀ attempt, g.request = some attempt →
      attempt.Rejected →
      g.since = none ∧ g.session? = none) ∧
    ((∀ g ∈ conns.clients, g.session? = none) →
      conns.room.bus.occupied = 0) := by
  intro conns
  have horder : conns.Invariant :=
    invariant_run (Chat.chatRouter_router hashing counter timeout) hbus moves
  have hat {i : Nat} {g : Client} {s : Session}
      (hg : conns.clients[i]? = some g) (hs : g.session? = some s) :
      (conns.clients.map Client.session?)[i]? = some (some s) := by
    rw [List.getElem?_map, hg, Option.map_some, hs]
  refine ⟨fun slot channel => ⟨fun htaken => ?_, ?_⟩, ?_, ?_, ?_, ?_⟩
  · obtain ⟨session, hmem, hsubscription⟩ := horder.slotsHeld.held htaken
    obtain ⟨g, hg, hsession⟩ := List.mem_map.mp hmem
    exact ⟨g, hg, session, hsession, hsubscription⟩
  · rintro ⟨g, hg, session, hsession, hsubscription⟩
    have hholds :=
      horder.slotsHeld.holds session (List.mem_map.mpr ⟨g, hg, hsession⟩)
    rwa [hsubscription] at hholds
  · intro i j g h s t hg hh hs ht hsame
    rcases hsame with hslot | hchannel
    · exact horder.slotsHeld.apart (hat hg hs) (hat hh ht) hslot
    · exact horder.slotsHeld.channel_apart (hat hg hs) (hat hh ht) hchannel
  · intro g hg
    exact (horder.stage g hg).session_iff
  · intro g hg attempt hrequest hrejected
    exact (horder.stage g hg).rejected hrequest hrejected
  · intro hnone
    apply horder.slotsHeld.occupied_eq_zero
    intro session hmem
    obtain ⟨g, hg, hsession⟩ := List.mem_map.mp hmem
    exact Option.some_ne_none session (hsession.symm.trans (hnone g hg))

/-- A valid token, and a room that knows it. -/
def sampleToken : Token := ⟨.nil, 7⟩

def sampleRoom : Room := { store := { tokens := [⟨sampleToken, 1000⟩] } }

/-- A client connects and asks for a session with the token. -/
def sampleHandshake (i : Nat) (proto : Proto) : List Move :=
  let request : Request :=
    { method := "GET"
      url := "/api/v1/chatting"
      proto
      body := sampleToken.toValue.text }
  [.connect 5000 {}, .socketAction i (.deliver request.bytes),
    .perform i (.readRequest 0), .perform i .respond, .perform i .beginUpgrade]

/-- One client opens a session and disconnects, another asks for none, and a
third connects after them. -/
def sampleMoves : List Move :=
  sampleHandshake 0 .streaming ++ sampleHandshake 1 .call ++
    [.socketAction 0 .leave, .perform 0 .writeEvent,
      .perform 0 (.readFrame 1)] ++ sampleHandshake 2 .streaming

theorem sampleMoves_slots_are_sessions :
    let conns :=
      run (Chat.router .plain "" 100) 5 { room := sampleRoom } sampleMoves
    (conns.clients.map fun g => (g.since, g.left)) =
        [(some 0, some 0), (none, none), (some 0, none)] ∧
      conns.room.bus.slots = [some 1] ∧
      ∃ g ∈ conns.clients, ∃ session, g.session? = some session ∧
        session.subscription = ⟨0, 1⟩ := by
  intro conns
  have hrun :
      ((conns.clients.map fun g => (g.since, g.left)), conns.room.bus.slots) =
      ([(some 0, some 0), (none, none), (some 0, none)], [some 1]) := by
    decide +kernel
  obtain ⟨hdates, hslots⟩ := Prod.mk.inj hrun
  refine ⟨hdates, hslots, ?_⟩
  exact ((slots_are_sessions .plain "" 100 5 rfl sampleMoves).1 0 1).mp
    (show conns.room.bus.slots[0]? = _ by rw [hslots]; rfl)

end Connections

end ChatRelay
