import ChatRelay.Monitor.Monitor
import ChatRelay.Route.Tree
import ChatRelay.Wire.Request
import ChatRelay.Wire.Response
/-!
# Services and layers

A service maps a call at a time and a state to a reply and a new state. The
reply determines when it becomes available. A layer is a transformation of
services.
-/

namespace ChatRelay

/-- Milliseconds of the monotonic clock. -/
abbrev Time := Nat

/-- The longest timer. Longer timers expire after this time. -/
def Time.longestWait : Time := 68719476734

/-- The expiry of a timer that starts now. -/
def Time.after (now wait : Time) : Time := now + min wait longestWait

/-- The metadata of a call. -/
structure Context where
  connection : Nat := 0
  requestId : Option Nat := none
  /-- The time by which the call should be answered. -/
  deadline : Option Time := none
  deriving DecidableEq, Repr, Inhabited

/-- The context with a deadline, unless it has an earlier one. -/
def Context.withDeadline (c : Context) (t : Time) : Context :=
  { c with deadline := some (c.deadline.elim t fun d => min d t) }

/-- A request with its context and route. -/
structure Call where
  request : Request
  context : Context := {}
  /-- The pattern that matched the request. -/
  pattern : Option Route.Pattern := none
  /-- The segments captured by the wildcards of the pattern, from left to
  right. -/
  taken : List String := []

namespace Call

/-- The names of the wildcards with the captured segments. -/
def named (c : Call) : List (String × String) :=
  (c.pattern.elim [] Route.Pattern.wildcards).zip c.taken

/-- The first segment captured under a name, or the empty text. -/
def param (c : Call) (name : String) : String :=
  ((c.named.find? fun p => p.1 = name).map Prod.snd).getD ""

/-- All names with the last segment captured under each. -/
def params (c : Call) : Json.Members :=
  Json.Members.ofList (c.named.map fun p => (p.1, .string p.2))

/-- A call with an empty request. -/
def bare : Call where
  request := { method := "GET", url := "/" }

end Call

inductive Reply where
  /-- A response that is available after a delay, and the records that are
  logged then. -/
  | ready (delay : Time) (response : Response) (records : List Record)
  /-- No reply. -/
  | never
  /-- The handler panicked. -/
  | broken (message : String)

/-- An immediate reply. -/
def Reply.now (response : Response) : Reply := .ready 0 response []

abbrev Service (σ : Type) := Time → Call → σ → Reply × σ

abbrev Layer (σ : Type) := Service σ → Service σ

namespace Layer

variable {σ : Type}

/-- The status text of a timeout. -/
def tooLate : String := "deadline exceeded"

/-- The reply limited by a deadline. A service that is ready at the deadline
still succeeds. -/
def limited (now deadline : Time) (reply : Reply) : Reply :=
  let late :=
    Reply.ready (deadline - now) (.refuse Status.badGateway tooLate) []
  match reply with
  | .ready delay _ _ =>
    if delay = 0 ∨ now + delay ≤ deadline then reply else late
  | .never => late
  | .broken _ => reply

/-- Limit calls to a duration, or to an earlier deadline they already have.
Calls with a streaming protocol are not limited. -/
def timeout (limit : Time) : Layer σ := fun inner now call s =>
  if call.request.proto.isStreaming then inner now call s
  else
    let context := call.context.withDeadline (now + limit)
    let (reply, s) := inner now { call with context } s
    (limited now (context.deadline.getD now) reply, s)

/-- Give each call a request id. -/
def requestId (next : σ → Nat × σ) : Layer σ := fun inner now call s =>
  let (id, s) := next s
  inner now { call with context := { call.context with requestId := some id } }
    s

/-- Log each call that is answered. -/
def trace : Layer σ := fun inner now call s =>
  let (reply, s) := inner now call s
  match reply with
  | .ready delay r records =>
    let record :=
      Record.completed (call.context.requestId.getD 0) call.request.method
        call.request.url r.code r.status r.contentLength
    (.ready delay r (records ++ [record]), s)
  | reply => (reply, s)

/-- The header to which `tag` appends. -/
def tagKey : String := "tags"

/-- Append a text to a header of the request. -/
def tag (text : String) : Layer σ := fun inner now call s =>
  let old := match call.request.header.get? tagKey with
    | some (.string s) => s
    | _ => ""
  let request := call.request.withHeader tagKey (.string (old ++ text))
  inner now { call with request } s

end Layer

end ChatRelay
