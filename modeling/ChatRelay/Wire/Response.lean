import ChatRelay.Json.Describe
import ChatRelay.Json.Record
import ChatRelay.Wire.Status
/-!
# Responses

A response has a status code, a status text, headers and a body. The length
header is computed when the response is written, and comes last.
-/

namespace ChatRelay

/-- The protocol that a connection is upgraded to after the response. -/
inductive Upgrade where
  /-- Every frame is echoed. -/
  | echo
  /-- A chat session of a user. -/
  | chat (user : Int)
  deriving DecidableEq, Repr

structure Response where
  code : Nat := Status.ok
  status : String
  header : Json.Members := []
  body : String := ""
  upgrade : Option Upgrade := none
  deriving Repr

namespace Response

def lengthKey : String := "Content-Length"

/-- A response with the default reason of its code. -/
def ofCode (code : Nat) : Response := { code, status := Status.reason code }

instance : Inhabited Response := ⟨ofCode Status.ok⟩

def ok (status : String) : Response := { status }

def refuse (code : Nat) (status : String) : Response := { code, status }

def withHeader (r : Response) (key : String) (value : Json.Value) : Response :=
  { r with header := r.header.insert key value }

/-- A response with a JSON text as its body. -/
def withJson (r : Response) (value : Json.Value) : Response :=
  { r with body := value.text }

/-- The length of the body in bytes. -/
def contentLength (r : Response) : Nat := r.body.utf8ByteSize

/-- The headers on the wire: the response's own headers except for a length,
followed by the length. -/
def wireHeader (r : Response) : Json.Members :=
  r.header.erase lengthKey ++ [(lengthKey, .number (.int r.contentLength))]

/-- The response as a JSON value, with the fields in order of declaration. -/
def toValue (r : Response) : Json.Value :=
  .object [("status", .string r.status), ("status_code", .number (.int r.code)),
    ("header", .object r.wireHeader), ("body", .string r.body)]

def bytes (r : Response) : Bytes := r.toValue.bytes

/-- The fields of a response parsed so far. -/
structure Fields where
  status : Option String := none
  code : Option Int := none
  header : Option Json.Members := none
  body : Option String := none

def shape : Json.Shape Fields Response where
  name := "struct WireResponse"
  start := {}
  fields := [
    .of "status" (·.status.isSome) (fun _ => Json.readText)
      (fun v s => { s with status := some v }),
    .of "status_code" (·.code.isSome) (fun _ => Json.readInteger "u16" 0 65535)
      (fun v s => { s with code := some v }),
    .of "header" (·.header.isSome) Json.readMap
      (fun v s => { s with header := some v }),
    .of "body" (·.body.isSome) (fun _ => Json.readText)
      (fun v s => { s with body := some v })]
  finish s := do
    let code ← Json.required "status_code" s.code
    return {
      code := code.toNat
      status := s.status.getD ""
      header := s.header.getD []
      body := s.body.getD "" }

def decode (frame : Bytes) : Except Json.Error Response := shape.parse frame

/-- The debug representation of a response. -/
def describe (r : Response) : String :=
  let header := String.ofList (Json.describeMembers r.header)
  let fields := [s!"status_code: {r.code}", s!"status: {Text.quoted r.status}",
    "header: \x7b" ++ header ++ "\x7d", s!"body: {Text.quoted r.body}",
    s!"upgrade: {r.upgrade.isSome}"]
  "Response \x7b " ++ ", ".intercalate fields ++ " \x7d"

end Response
end ChatRelay
