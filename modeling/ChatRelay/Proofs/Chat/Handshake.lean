import ChatRelay.Chat.Api
import ChatRelay.Proofs.Route.Scan
import ChatRelay.Proofs.Server.Connections
/-!
# Handshakes

The chat offers a session only in response to a streaming call with a valid
token, and this response is the welcome. No route and no layer changes the bus.
-/

namespace ChatRelay

namespace RequestRecord

/-- The handshake succeeds, and the session belongs to `user`. -/
structure Accepted (attempt : RequestRecord) (user : Int) : Prop where
  streaming : attempt.request.proto.isStreaming = true
  token : ∃ token,
    Token.shape.parse (Utf8.ofString attempt.request.body) = .ok token ∧
    (attempt.store.validate attempt.now token).1 = .ok () ∧ token.user = user

inductive Rejected (attempt : RequestRecord) : Prop
  /-- The call is not a streaming one. -/
  | protocol (h : attempt.request.proto.isStreaming = false)
  /-- The body is not a token object. -/
  | body (h : ∀ token,
    Token.shape.parse (Utf8.ofString attempt.request.body) ≠ .ok token)
  /-- The token is not valid. -/
  | token {token : Token} (hbody :
      Token.shape.parse (Utf8.ofString attempt.request.body) = .ok token)
      (h : (attempt.store.validate attempt.now token).1 ≠ .ok ())

theorem Accepted.not_rejected {attempt : RequestRecord} {user : Int}
    (h : attempt.Accepted user) :
    ¬ attempt.Rejected := by
  obtain ⟨token, hbody, hgood, -⟩ := h.token
  rintro (hprotocol | hnone | ⟨hbody', hbad⟩)
  · exact absurd (h.streaming.symm.trans hprotocol) Bool.true_eq_false_eq_False
  · exact hnone token hbody
  · obtain rfl := Except.ok.inj (hbody.symm.trans hbody')
    exact hbad hgood

end RequestRecord

namespace Chat

/-- The response to a successful handshake. -/
def welcome : Bytes := (Response.ok readyForMessages).bytes

/-- An upgrade is offered only behind the welcome and to a successful
handshake. -/
def OffersOnlyAccepted (attempt : RequestRecord) (response : Response) : Prop :=
  ∀ upgrade, response.upgrade = some upgrade →
    response.bytes = welcome ∧ ∃ user, upgrade = .chat user ∧
    attempt.Accepted user

theorem offers_nothing (attempt : RequestRecord) {response : Response}
    (h : response.upgrade = none) :
    OffersOnlyAccepted attempt response := by
  intro upgrade hupgrade
  exact nomatch h.symm.trans hupgrade

/-- A service leaves the bus alone and offers an upgrade only to a successful
handshake. -/
structure ChatService (service : Service Room) : Prop where
  bus : ∀ now call room, (service now call room).2.bus = room.bus
  offers : ∀ now call (room : Room) delay response records,
    (service now call room).1 = .ready delay response records →
      OffersOnlyAccepted ⟨now, call.request, room.store⟩ response

section

variable {service : Service Room}

theorem offers_limited {attempt : RequestRecord} {now deadline delay : Time}
    {reply : Reply} {response : Response} {records : List Record}
    (h : ∀ delay response records, reply = .ready delay response records →
      OffersOnlyAccepted attempt response)
    (hready : Layer.limited now deadline reply =
      .ready delay response records) :
    OffersOnlyAccepted attempt response := by
  have hlate :
      (Response.refuse Status.badGateway Layer.tooLate).upgrade = none :=
    rfl
  cases reply with
  | ready delay' response' records' =>
      simp only [Layer.limited] at hready
      split at hready
      · exact h _ _ _ hready
      · obtain ⟨-, rfl, -⟩ := Reply.ready.inj hready
        exact offers_nothing attempt hlate
  | never =>
      obtain ⟨-, rfl, -⟩ := Reply.ready.inj hready
      exact offers_nothing attempt hlate
  | broken message => exact nomatch hready

theorem ChatService.timeout (h : ChatService service) (limit : Time) :
    ChatService (Layer.timeout limit service) := by
  refine ⟨fun now call room => ?_,
    fun now call room delay response records hready => ?_⟩
  · unfold Layer.timeout
    split <;> exact h.bus now _ room
  · unfold Layer.timeout at hready
    split at hready
    · exact h.offers now call room delay response records hready
    · let context := call.context.withDeadline (now + limit)
      exact offers_limited (h.offers now { call with context } room) hready

theorem ChatService.trace (h : ChatService service) :
    ChatService (Layer.trace service) := by
  refine ⟨fun now call room => ?_,
    fun now call room delay response records hready => ?_⟩
  · have hbus := h.bus now call room
    unfold Layer.trace
    generalize service now call room = answered at hbus
    obtain ⟨reply, room'⟩ := answered
    cases reply <;> exact hbus
  · have hoffers := h.offers now call room
    unfold Layer.trace at hready
    generalize service now call room = answered at hoffers hready
    obtain ⟨reply, room'⟩ := answered
    cases reply with
    | ready delay' response' records' =>
        obtain ⟨-, rfl, -⟩ := Reply.ready.inj hready
        exact hoffers delay' response' records' rfl
    | never => exact nomatch hready
    | broken message => exact nomatch hready

theorem ChatService.requestId (h : ChatService service) (counter : String) :
    ChatService (Layer.requestId (Room.nextId counter) service) :=
  ⟨fun now _ room => h.bus now _ (Room.nextId counter room).2,
    fun now _ room => h.offers now _ (Room.nextId counter room).2⟩

/-- Handlers that change only the store and offer no upgrade. -/
theorem chatService_of_none {handler : Handler} (hbus : ∀ now call room,
    (handler now call room).2.bus = room.bus)
    (hnone : ∀ now call room, (handler now call room).1.upgrade = none) :
    ChatService handler.service := by
  refine ⟨hbus, fun now call room delay response records hready => ?_⟩
  obtain ⟨-, rfl, -⟩ := Reply.ready.inj hready
  exact offers_nothing _ (hnone now call room)

theorem upgrade_respondWith {α : Type} (result : Except StoreError α)
    {present : α → Response} (h : ∀ a, (present a).upgrade = none) :
    (respondWith result present).upgrade = none := by
  cases result with
  | ok a => exact h a
  | error e => rfl

theorem upgrade_page (messages : List Message) :
    (page messages).upgrade = none := by
  unfold page
  split <;> rfl

theorem chatService_signUp (h : Hashing) : ChatService (signUp h).service := by
  apply chatService_of_none
  · intro now call room
    unfold signUp
    split
    · rfl
    · simp only
      split <;> rfl
  · intro now call room
    unfold signUp
    split
    · rfl
    · simp only
      split <;> rfl

theorem chatService_signIn (h : Hashing) : ChatService (signIn h).service := by
  apply chatService_of_none
  · intro now call room
    unfold signIn
    split
    · rfl
    · simp only
      split <;> rfl
  · intro now call room
    unfold signIn
    split
    · rfl
    · simp only
      split <;> rfl

theorem chatService_signInToken : ChatService signInToken.service := by
  apply chatService_of_none
  · intro now call room
    unfold signInToken
    split
    · rfl
    · split <;> next hvalidate => rw [← (Prod.mk.inj hvalidate).2]
  · intro now call room
    unfold signInToken
    split
    · rfl
    · split
      · rfl
      · exact upgrade_respondWith _ fun _ => rfl

theorem chatService_messages : ChatService messages.service := by
  apply chatService_of_none
  · intro now call room
    unfold messages
    split
    · rfl
    · split <;> next hvalidate => rw [← (Prod.mk.inj hvalidate).2]
  · intro now call room
    unfold messages
    split
    · rfl
    · split
      · rfl
      · exact upgrade_respondWith _ upgrade_page

theorem chatService_member : ChatService member.service := by
  apply chatService_of_none
  · intro now call room
    unfold member
    split <;> rfl
  · intro now call room
    unfold member
    split
    · rfl
    · exact upgrade_respondWith _ fun _ => rfl

theorem chatService_members : ChatService members.service := by
  apply chatService_of_none
  · intro now call room
    rfl
  · intro now call room
    exact upgrade_respondWith _ fun _ => rfl

/-- An upgrade is offered only after all checks of the handshake. -/
theorem offers_chatting (now : Time) (call : Call) (room : Room) :
    OffersOnlyAccepted ⟨now, call.request, room.store⟩
      (chatting now call room).1 := by
  unfold chatting
  split
  · exact offers_nothing _ rfl
  next hstreaming =>
  split
  · exact offers_nothing _ rfl
  next token hbody =>
  split
  · exact offers_nothing _ rfl
  next hvalidate =>
  intro upgrade hupgrade
  refine ⟨rfl, token.user, (Option.some.inj hupgrade).symm, ?_, token,
    hbody, ?_, rfl⟩
  · simpa using hstreaming
  · exact (Prod.mk.inj hvalidate).1

theorem chatService_chatting : ChatService chatting.service := by
  refine ⟨fun now call room => ?_,
    fun now call room delay response records hready => ?_⟩
  · change (chatting now call room).2.bus = room.bus
    unfold chatting
    split
    · rfl
    · split
      · rfl
      · split <;> next hvalidate => rw [← (Prod.mk.inj hvalidate).2]
  · obtain ⟨-, hresponse, -⟩ := Reply.ready.inj hready
    rw [← hresponse]
    exact offers_chatting now call room

theorem chatService_routes (h : Hashing) :
    ∀ route ∈ routes h, ChatService route.2.2.service := by
  intro route hroute
  simp only [routes, List.mem_cons, List.not_mem_nil, or_false] at hroute
  rcases hroute with rfl | rfl | rfl | rfl | rfl | rfl | rfl
  · exact chatService_signUp h
  · exact chatService_signIn h
  · exact chatService_signInToken
  · exact chatService_messages
  · exact chatService_member
  · exact chatService_members
  · exact chatService_chatting

end

/-- All services of a table have a property. -/
def AllServices {ρ : Type} (P : ρ → Prop) (table : Route.Table ρ) : Prop :=
  ∃ routes, Route.Lists table routes ∧ ∀ route ∈ routes, P route.2

theorem AllServices.handle {ρ : Type} {P : ρ → Prop} {mux : Mux ρ}
    (h : AllServices P mux.table) (method url : String) {service : ρ}
    (hservice : P (mux.wrap service)) :
    AllServices P
      ((mux.handle method url service).toOption.getD mux).table := by
  cases hhandle : mux.handle method url service with
  | error e => exact h
  | ok mux' =>
      obtain ⟨routes, hlists, hroutes⟩ := h
      simp only [Mux.handle, bind, Except.bind] at hhandle
      split at hhandle
      · exact nomatch hhandle
      · next pattern _ =>
        split at hhandle
        · exact nomatch hhandle
        · next table hinsert =>
          obtain rfl := Except.ok.inj hhandle
          refine ⟨routes ++ [(pattern, mux.wrap service)], ?_, ?_⟩
          · exact Route.lists_insert hlists hinsert
          · intro route hroute
            rcases List.mem_append.mp hroute with hold | hnew
            · exact hroutes route hold
            · rw [List.mem_singleton.mp hnew]
              exact hservice

theorem layers_handle {ρ : Type} (mux : Mux ρ) (method url : String)
    (service : ρ) :
    ((mux.handle method url service).toOption.getD mux).layers =
      mux.layers := by
  cases hhandle : mux.handle method url service with
  | error e => rfl
  | ok mux' =>
      simp only [Mux.handle, bind, Except.bind] at hhandle
      split at hhandle
      · exact nomatch hhandle
      · split at hhandle
        · exact nomatch hhandle
        · obtain rfl := Except.ok.inj hhandle
          rfl

/-- The layers of the chat preserve the property. -/
theorem ChatService.wrap {service : Service Room} (h : ChatService service)
    {mux : Room.Router} {counter : String} {timeout : Time}
    (hmux : mux.layers = layers counter timeout) :
    ChatService (mux.wrap service) := by
  rw [Mux.wrap, hmux]
  exact ((h.timeout timeout).trace).requestId counter

/-- A router with the layers of the chat in which all services have the
property. -/
structure ChatLayered (counter : String) (timeout : Time) (mux : Room.Router) :
    Prop where
  layers : mux.layers = layers counter timeout
  services : AllServices ChatService mux.table

theorem chatLayered_router (h : Hashing) (counter : String) (timeout : Time) :
    ChatLayered counter timeout (router h counter timeout) := by
  unfold router
  refine List.foldlRecOn (motive := ChatLayered counter timeout) (routes h) _
    ⟨rfl, [], ?_, by simp⟩ ?_
  · intro method segments route
    simp [layers, Mux.layer, Mux.empty, Route.Table.root, Route.Tree.get?_empty]
  · intro mux hmux route hroute
    refine ⟨(layers_handle mux _ _ _).trans hmux.layers,
      hmux.services.handle _ _ ?_⟩
    exact (chatService_routes h route hroute).wrap hmux.layers

/-- A call to the chat leaves the bus alone, and only a successful handshake is
offered an upgrade. -/
structure ChatRouter (router : Room.Router) : Prop where
  quiet : router.Quiet
  offers : ∀ now context request (room : Room) delay response records,
    (room.call router now context request).1 =
      some (.ready delay response records) →
      OffersOnlyAccepted ⟨now, request, room.store⟩ response

theorem chatRouter_of_allServices {router : Room.Router}
    (h : AllServices ChatService router.table) : ChatRouter router := by
  obtain ⟨routes, hlists, hroutes⟩ := h
  have hfound {request : Request} {found : Route.Table.Match (Service Room)}
      (hroute : router.route? request = some found) : ChatService found.value :=
    hroutes _ (Route.find?_chosen hlists hroute).1.mem
  refine ⟨fun now context request room => ?_,
    fun now context request room delay response records hready => ?_⟩
  · unfold Room.call Mux.call
    cases hroute : router.route? request with
    | none => rfl
    | some found => exact (hfound hroute).bus now _ _
  · unfold Room.call Mux.call at hready
    cases hroute : router.route? request with
    | none => simp [hroute] at hready
    | some found =>
        simp only [hroute, Option.map_some, Option.some.injEq] at hready
        exact (hfound hroute).offers now _ _ delay response records hready

theorem chatRouter_router (h : Hashing) (counter : String) (timeout : Time) :
    ChatRouter (router h counter timeout) :=
  chatRouter_of_allServices (chatLayered_router h counter timeout).services

end Chat

end ChatRelay
