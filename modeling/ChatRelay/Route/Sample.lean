import ChatRelay.Json.Reader
import ChatRelay.Route.Service
import ChatRelay.Text.Integer
/-!
# Sample handlers

Handlers that exercise the router: they return what a handler observes of a
call, or one of the possible kinds of replies.
-/

namespace ChatRelay

inductive Sample where
  /-- Returns the pattern and the captured segments. -/
  | echo
  /-- Returns all parameters. -/
  | params
  /-- Returns one parameter. -/
  | param (name : String)
  /-- Returns one numeric parameter. -/
  | number (name : String)
  /-- Returns the request. -/
  | request
  /-- Returns the JSON value in the body. -/
  | json
  /-- Returns the context. -/
  | context
  /-- Replies after a delay. -/
  | sleep (delay : Time)
  /-- Never replies. -/
  | pending
  /-- Panics. -/
  | panic (message : String)
  /-- Replies when a spawned task has finished. -/
  | spawn (delay : Time)
  /-- Replies with a given response. -/
  | reply (response : Response)
  /-- Offers an upgrade to streaming calls. -/
  | stream
  /-- Offers an upgrade to all calls. -/
  | upgrade
  /-- Replies with a given status. -/
  | named (status : String)

namespace Sample

/-- A response that offers an upgrade. -/
def offer : Response := { Response.ok "streaming" with upgrade := some .echo }

def optional (n : Option Nat) : Json.Value :=
  n.elim .null fun n => .number (.int n)

/-- The response of a handler that replies immediately. -/
def respond (now : Time) (call : Call) : Sample → Response
  | echo =>
    let status := call.pattern.elim "" Route.Pattern.text
    { Response.ok status with body := ",".intercalate call.taken }
  | params => (Response.ok "params").withJson (.object call.params)
  | param name => { Response.ok "param" with body := call.param name }
  | number name =>
    match Text.natural? Text.maxNatural (call.param name) with
    | some n => { Response.ok "found" with body := toString n }
    | none => .refuse Status.badRequest "bad id"
  | request =>
    { Response.ok "req" with
      body := (Utf8.toString? call.request.bytes).getD "" }
  | json =>
    match Json.parse (Utf8.ofString call.request.body) with
    | .ok v => (Response.ok "json").withJson v
    | .error e => .refuse Status.badRequest e.message
  | context =>
    let left := call.context.deadline.map fun d => d - now
    (Response.ok "ctx").withJson
      (.array [.number (.int call.context.connection),
        optional call.context.requestId, optional left])
  | sleep _ => .ok "slept"
  | pending => .ok ""
  | panic _ => .ok ""
  | spawn _ => { Response.ok "spawned" with body := "Some(())" }
  | reply r => r
  | stream =>
    if call.request.proto.isStreaming then offer
    else .refuse Status.badRequest "streaming only"
  | upgrade => offer
  | named status => .ok status

/-- The service of a sample handler. -/
def service {σ : Type} (sample : Sample) : Service σ := fun now call s =>
  let response := sample.respond now call
  match sample with
  | sleep delay => (.ready (min delay Time.longestWait) response [], s)
  | spawn delay => (.ready (min delay Time.longestWait) response [], s)
  | pending => (.never, s)
  | panic message => (.broken message, s)
  | _ => (.now response, s)

/-- A service that ignores its call. -/
def blind {σ : Type} (service : Service σ) : Service σ :=
  fun now _ s => service now .bare s

end Sample
end ChatRelay
