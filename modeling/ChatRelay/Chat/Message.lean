import ChatRelay.Json.Record
/-!
# Chat messages

A chat message and its JSON representation, in which the kind of a message is a
small integer.
-/

namespace ChatRelay

inductive MessageKind where
  | createConversation
  | addingUser
  | userText
  deriving DecidableEq, Repr, Inhabited

namespace MessageKind

/-- The number of a kind on the wire. -/
def number : MessageKind → Nat
  | createConversation => 0
  | addingUser => 1
  | userText => 2

/-- The kind with a given number. -/
def ofNumber? : Nat → Option MessageKind
  | 0 => some createConversation
  | 1 => some addingUser
  | 2 => some userText
  | _ => none

def name : MessageKind → String
  | createConversation => "CreateConversation"
  | addingUser => "AddingUser"
  | userText => "UserText"

/-- The error message for a number that denotes no kind. -/
def refusal (n : Nat) : String := s!"invalid message kind {n}"

theorem ofNumber?_number (kind : MessageKind) :
    ofNumber? kind.number = some kind := by
  cases kind <;> rfl

end MessageKind

/-- A chat message. Times are in milliseconds since 1970. -/
structure Message where
  id : String
  sender : Int
  kind : MessageKind
  text : String
  createdAt : Int
  updatedAt : Int
  deriving DecidableEq, Repr, Inhabited

namespace Message

open Json

def textOf : Value → Judged String
  | .string s => .ok s
  | v => .error (.wrongType (.ofValue v) "a string")

/-- Expect an integer in the given range. -/
def integerOf (expected : String) (least greatest : Int) : Value → Judged Int
  | .number (.int i) =>
    if least ≤ i ∧ i ≤ greatest then .ok i
    else .error (.wrongInteger i expected)
  | v => .error (.wrongType (.ofValue v) expected)

/-- Expect a signed 64-bit integer. -/
def longOf : Value → Judged Int := integerOf "i64" Text.minLong Text.maxLong

/-- Expect the number of a message kind. -/
def kindOf (v : Value) : Judged MessageKind := do
  let n ← integerOf "u8" 0 255 v
  match MessageKind.ofNumber? n.toNat with
  | some kind => return kind
  | none => .error (.refused (MessageKind.refusal n.toNat))

/-- The fields of a message parsed so far. -/
structure Fields where
  id : Option String := none
  sender : Option Int := none
  kind : Option MessageKind := none
  text : Option String := none
  createdAt : Option Int := none
  updatedAt : Option Int := none

/-- The field names in order of declaration. -/
def fieldNames : List String :=
  ["id", "sender_id", "message_kind", "message", "created_at", "updated_at"]

/-- Parse the value of one field. Fields with other names are ignored. -/
def Fields.set (s : Fields) (name : String) (v : Value) : Judged Fields :=
  if name = "id" then (textOf v).map fun x => { s with id := some x }
  else if name = "sender_id" then (longOf v).map fun x =>
    { s with sender := some x }
  else if name = "message_kind" then (kindOf v).map fun x =>
    { s with kind := some x }
  else if name = "message" then (textOf v).map fun x =>
    { s with text := some x }
  else if name = "created_at" then (longOf v).map fun x =>
    { s with createdAt := some x }
  else if name = "updated_at" then (longOf v).map fun x =>
    { s with updatedAt := some x }
  else .ok s

/-- The message, or the name of the first missing field. The id and the times
are optional. -/
def Fields.finish (s : Fields) : Except String Message := do
  let sender ← required "sender_id" s.sender
  let kind ← required "message_kind" s.kind
  let text ← required "message" s.text
  return {
    id := s.id.getD "", sender, kind, text
    createdAt := s.createdAt.getD 0
    updatedAt := s.updatedAt.getD 0 }

/-- Parse a list of named values. -/
def Fields.setAll (s : Fields) : List (String × Value) → Judged Fields
  | [] => .ok s
  | (name, v) :: rest => (s.set name v).bind fun s => s.setAll rest

/-- The message in a value: an object, or a list of the fields in order. -/
def ofValue : Value → Judged Message
  | .object members => do
    let s ← Fields.setAll {} members
    s.finish.mapError .missingField
  | .array values => do
    let s ← Fields.setAll {} (fieldNames.zip values)
    let message ← s.finish.mapError fun name =>
      .wrongLength (fieldNames.findIdx (· = name))
        "struct NewMessage with 6 elements"
    if fieldNames.length < values.length then
      .error (.wrongLength values.length "fewer elements in array")
    return message
  | v => .error (.wrongType (.ofValue v) "struct NewMessage")

/-- The message as a JSON value, with the fields in order of declaration. -/
def toValue (m : Message) : Value :=
  .object [("id", .string m.id), ("sender_id", .number (.int m.sender)),
    ("message_kind", .number (.int m.kind.number)), ("message", .string m.text),
    ("created_at", .number (.int m.createdAt)),
      ("updated_at", .number (.int m.updatedAt))]

/-- The message as an object with its members sorted by name. -/
def payload (m : Message) : Members :=
  [("created_at", .number (.int m.createdAt)), ("id", .string m.id),
    ("message", .string m.text), ("message_kind", .number (.int m.kind.number)),
      ("sender_id", .number (.int m.sender)),
    ("updated_at", .number (.int m.updatedAt))]

end Message
end ChatRelay
