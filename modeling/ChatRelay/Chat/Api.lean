import ChatRelay.Calendar.Rfc3339
import ChatRelay.Chat.Room
/-!
# The HTTP-style routes of the chat

The handlers for accounts, members, message history and the session handshake.
-/

namespace ChatRelay

/-- The response to a store error. -/
def StoreError.response (e : StoreError) : Response :=
  let code := match e with
    | notFound _ => Status.notFound
    | alreadyExists | invalidPassword => Status.badRequest
    | invalidToken => Status.unauthorized
    | internal _ => Status.internalError
  .refuse code e.message

/-- The body of a history request. -/
structure HistoryQuery where
  token : Token
  /-- An exclusive upper bound on the creation time. -/
  before : Int
  limit : Nat
  deriving DecidableEq, Repr

namespace HistoryQuery

open Json

/-- The time denoted by a value: a number of milliseconds or an RFC 3339
text. -/
def timeOf : Value → Judged Int
  | .number (.int i) =>
    if Text.minLong ≤ i ∧ i ≤ Text.maxLong then .ok i else .error unmatched
  | .string s => (Rfc3339.milliseconds s).mapError fun e => .refused e.message
  | _ => .error unmatched
where
  unmatched : Cause :=
    .refused "data did not match any variant of untagged enum Timestamp"

/-- The fields of a history query parsed so far. -/
structure Fields where
  token : Option Token := none
  before : Option Int := none
  limit : Option Int := none

def shape : Shape Fields HistoryQuery where
  name := "struct HistoryQuery"
  start := {}
  fields := [
    .of "auth_token" (·.token.isSome) Token.shape.read
      (fun v s => { s with token := some v }),
    { name := "timestamp"
      isSet := (·.before.isSome)
      read := fun limits text => do
        let (v, rest) ← readValue limits.bound none limits.depth text
        return ((timeOf v).map fun t s => { s with before := some t }, rest) },
    .of "limit" (·.limit.isSome)
      (fun _ => readInteger "usize" 0 Text.maxNatural)
      (fun v s => { s with limit := some v })]
  finish s := do
    let token ← required "auth_token" s.token
    let before ← required "timestamp" s.before
    let limit ← required "limit" s.limit
    return { token, before, limit := limit.toNat }

end HistoryQuery

namespace Chat

/-- A route handler that responds immediately. -/
abbrev Handler := Time → Call → Room → Response × Room

def Handler.service (handler : Handler) : Service Room := fun now call room =>
  let (response, room) := handler now call room
  (.now response, room)

/-- The status text of a successful sign up. -/
def signedUp : String := "successful sign up"

/-- The status text of a successful sign in. -/
def signedIn : String := "successful sign in"

/-- The status text of an empty page of messages. -/
def noMoreMessages : String := "no more messages"

/-- The status text for a handshake without a streaming protocol or without a
token. -/
def notSupported : String := "not supported protocol"

/-- The status text of a successful handshake. -/
def readyForMessages : String := "ready for messages"

/-- The status text for an invalid or expired token. -/
def tokenExpired : String := "token expired"

/-- The response to a body that cannot be parsed. -/
def refused (e : Json.Error) : Response := .refuse Status.badRequest e.message

/-- The response to an invalid token. -/
def unauthorized : Response := .refuse Status.unauthorized tokenExpired

/-- The response to a handshake without a streaming protocol. -/
def unsupported : Response := .refuse Status.badRequest notSupported

def signUp (h : Hashing) : Handler := fun _ call room =>
  match Credentials.shape.parse (Utf8.ofString call.request.body) with
  | .error e => (refused e, room)
  | .ok given =>
    let (salt, room) := room.takeSalt
    let (colour, room) := room.takeColour
    match room.store.signUp h given salt colour with
    | .error e => (e.response, room)
    | .ok (user, store) =>
      let room := { room with store }.record [.signedUp user.id user.login]
      (.ok signedUp, room)

/-- Sign in with a password and issue a token. -/
def signIn (h : Hashing) : Handler := fun now call room =>
  match Credentials.shape.parse (Utf8.ofString call.request.body) with
  | .error e => (refused e, room)
  | .ok given =>
    let (id, room) := room.takeUuid
    match room.store.signIn h now given id with
    | .error e => (e.response, room)
    | .ok (token, user, store) =>
      ((Response.ok signedIn).withJson
        (.object [("auth_token", token.toValue), ("user", user.toValue)]),
          { room with store })

/-- Validate a token. An expired token is removed from the store. -/
def validate (now : Time) (token : Token) (room : Room) :
    Except StoreError Unit × Room :=
  let (result, store) := room.store.validate now token
  (result, { room with store })

/-- The response of a handler that presents a result of the store. -/
def respondWith {α : Type} (result : Except StoreError α)
    (present : α → Response) : Response :=
  match result with
  | .ok a => present a
  | .error e => e.response

/-- Sign in with a token. -/
def signInToken : Handler := fun now call room =>
  match Token.shape.parse (Utf8.ofString call.request.body) with
  | .error e => (refused e, room)
  | .ok token =>
    match validate now token room with
    | (.error e, room) => (e.response, room)
    | (.ok (), room) =>
      (respondWith (room.reading (·.user token.user)) fun user =>
        (Response.ok signedIn).withJson user.toValue, room)

/-- The response with a page of messages. -/
def page (messages : List Message) : Response :=
  let response :=
    if messages.isEmpty then Response.ok noMoreMessages else .ofCode Status.ok
  response.withJson
    (.object [("messages", .array (messages.map Message.toValue))])

def messages : Handler := fun now call room =>
  match HistoryQuery.shape.parse (Utf8.ofString call.request.body) with
  | .error e => (refused e, room)
  | .ok query =>
    match validate now query.token room with
    | (.error _, room) => (unauthorized, room)
    | (.ok (), room) =>
      (respondWith (room.reading fun store =>
        .ok (store.messagesBefore query.before query.limit)) page, room)

def member : Handler := fun _ call room =>
  match Text.long? (call.param "id") with
  | none => (.refuse Status.badRequest "invalid user id", room)
  | some id =>
    (respondWith (room.reading (·.user id)) fun user =>
      (Response.ofCode Status.ok).withJson user.toValue, room)

def members : Handler := fun _ _ room =>
  (respondWith (room.reading fun store => .ok store.users) fun users =>
    (Response.ofCode Status.ok).withJson (.array (users.map User.toValue)),
      room)

/-- The handshake of a chat session. -/
def chatting : Handler := fun now call room =>
  if ¬ call.request.proto.isStreaming then (unsupported, room)
  else match Token.shape.parse (Utf8.ofString call.request.body) with
    | .error _ => (unsupported, room)
    | .ok token =>
      match validate now token room with
      | (.error _, room) => (unauthorized, room)
      | (.ok (), room) =>
        ({ Response.ok readyForMessages with
            upgrade := some (.chat token.user) }, room)

/-- The handlers with their methods and urls. -/
def routes (h : Hashing) : List (String × String × Handler) := [
  ("POST", "/api/v1/signup", signUp h),
  ("POST", "/api/v1/signin", signIn h),
  ("POST", "/api/v1/signin/token", signInToken),
  ("GET", "/api/v1/messages", messages),
  ("GET", "/api/v1/member/\x7bid\x7d", member),
  ("GET", "/api/v1/member", members),
  ("GET", "/api/v1/chatting", chatting)]

/-- The layers around each route: request ids outermost, then traces, then a
timeout. -/
def layers (counter : String) (timeout : Time) : List (Layer Room) :=
  [.timeout timeout, .trace, .requestId (Room.nextId counter)]

def router (h : Hashing) (counter : String) (timeout : Time) : Room.Router :=
  let mux := (layers counter timeout).foldl Mux.layer Mux.empty
  (routes h).foldl (fun mux (method, url, handler) =>
    (mux.handle method url handler.service).toOption.getD mux) mux

end Chat
end ChatRelay
