import ChatRelay.Chat.Message
/-!
# Chat events

An event travels in an envelope that names its type. Only known types are
accepted from a client.
-/

namespace ChatRelay

inductive EventKind where
  | newMessage
  deriving DecidableEq, Repr

namespace EventKind

/-- The name of an event type on the wire. -/
def name : EventKind → String
  | newMessage => "NewMessageEvent"

/-- The event type with a given name. -/
def ofName? (s : String) : Option EventKind :=
  if s = newMessage.name then some newMessage else none

end EventKind

/-- The ways in which decoding an event can fail. -/
inductive EventError where
  | unknownType (name : String)
  | payload (error : Json.Error)
  deriving DecidableEq, Repr

def EventError.message : EventError → String
  | unknownType name => s!"unknown event type: {name}"
  | payload error => s!"invalid event payload: {error.message}"

/-- An event type and an arbitrary payload. -/
structure Envelope where
  type : String
  payload : Json.Value
  deriving Repr

namespace Envelope

/-- The fields of an envelope parsed so far. -/
structure Fields where
  type : Option String := none
  payload : Option Json.Value := none

/-- The record shape of an envelope. -/
def shape : Json.Shape Fields Envelope where
  name := "struct PublicEvent"
  start := {}
  fields := [
    .of "type" (·.type.isSome) (fun _ => Json.readText)
      (fun v s => { s with type := some v }),
    .of "payload" (·.payload.isSome) Json.readAny
      (fun v s => { s with payload := some v })]
  finish s := do
    let type ← Json.required "type" s.type
    return ⟨type, s.payload.getD .null⟩

/-- Decode the envelope in a frame. -/
def decode (frame : Bytes) : Except EventError Envelope :=
  (shape.parse frame).mapError .payload

/-- The event type that an envelope names. -/
def kind (e : Envelope) : Except EventError EventKind :=
  match EventKind.ofName? e.type with
  | some kind => .ok kind
  | none => .error (.unknownType e.type)

def toValue (e : Envelope) : Json.Value :=
  .object [("type", .string e.type), ("payload", e.payload)]

end Envelope

inductive Event where
  | newMessage (message : Message)
  deriving DecidableEq, Repr

namespace Event

def kind : Event → EventKind
  | newMessage _ => .newMessage

/-- The message in the payload of an event. -/
def message : Event → Message
  | newMessage m => m

def ofEnvelope (e : Envelope) : Except EventError Event := do
  match ← e.kind with
  | .newMessage =>
    match Message.ofValue e.payload with
    | .ok m => return newMessage m
    | .error cause => .error (.payload (.ofCause cause))

def envelope : Event → Envelope
  | newMessage m => ⟨EventKind.newMessage.name, .object m.payload⟩

/-- The frame of an event. -/
def bytes (e : Event) : Bytes := e.envelope.toValue.bytes

/-- Decode the event in a frame. -/
def decode (frame : Bytes) : Except EventError Event := do
  ofEnvelope (← Envelope.decode frame)

end Event
end ChatRelay
