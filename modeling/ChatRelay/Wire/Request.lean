import ChatRelay.Json.Record
/-!
# Requests

A request has a method, a url, a protocol, and optional headers and body.
`Request.decode` supplies defaults for missing fields.
-/

namespace ChatRelay

inductive Proto where
  /-- A single response, after which the connection is closed. -/
  | call
  /-- A protocol that can be upgraded. -/
  | streaming
  deriving DecidableEq, Repr, Inhabited

namespace Proto

/-- The protocol name on the wire. -/
def name : Proto → String
  | call => "http"
  | streaming => "ws"

/-- The protocol with a given name. Unknown names denote plain calls. -/
def ofName (s : String) : Proto :=
  if s = "ws" then streaming else call

/-- Whether the protocol can be upgraded. -/
def isStreaming (p : Proto) : Bool := p = streaming

end Proto

structure Request where
  method : String
  url : String
  proto : Proto := .call
  header : Json.Members := []
  body : String := ""
  deriving Repr, Inhabited

/-- The ways in which decoding a request can fail. -/
inductive RequestError where
  | invalidJson (error : Json.Error)
  | emptyMethod
  deriving DecidableEq, Repr

def RequestError.message : RequestError → String
  | invalidJson error => s!"Invalid JSON: {error.message}"
  | emptyMethod => "Request method is empty"

namespace Request

/-- The fields of a request parsed so far. -/
structure Fields where
  method : Option String := none
  url : Option String := none
  proto : Option (Option String) := none
  header : Option (Option Json.Members) := none
  body : Option (Option String) := none

/-- The record shape of a request. Optional fields may be null. -/
def shape : Json.Shape Fields Request where
  name := "struct WireRequest"
  start := {}
  fields := [
    .of "method" (·.method.isSome) (fun _ => Json.readText)
      (fun v s => { s with method := some v }),
    .of "url" (·.url.isSome) (fun _ => Json.readText)
      (fun v s => { s with url := some v }),
    .of "proto" (·.proto.isSome) (fun _ => Json.readOptional Json.readText)
      (fun v s => { s with proto := some v }),
    .of "header" (·.header.isSome) (fun l => Json.readOptional (Json.readMap l))
      (fun v s => { s with header := some v }),
    .of "body" (·.body.isSome) (fun _ => Json.readOptional Json.readText)
      (fun v s => { s with body := some v })]
  finish s := do
    let method ← Json.required "method" s.method
    let url ← Json.required "url" s.url
    return {
      method := method
      url := url
      proto := s.proto.join.elim .call .ofName
      header := s.header.join.getD []
      body := s.body.join.getD "" }

def decode (frame : Bytes) : Except RequestError Request :=
  match shape.parse frame with
  | .error e => .error (.invalidJson e)
  | .ok r => if r.method = "" then .error .emptyMethod else .ok r

/-- The request as a JSON value, with the fields in order of declaration. -/
def toValue (r : Request) : Json.Value :=
  .object [("method", .string r.method), ("url", .string r.url),
    ("proto", .string r.proto.name), ("header", .object r.header),
      ("body", .string r.body)]

def bytes (r : Request) : Bytes := r.toValue.bytes

def withHeader (r : Request) (key : String) (value : Json.Value) : Request :=
  { r with header := r.header.insert key value }

end Request
end ChatRelay
