import ChatRelay.Json.Reader
/-!
# Reading records

A record is read from an object with its field names in any order, where unknown
names are skipped, or from a list of its fields in order. An error about the
record as a whole, such as a missing field, is located where reading stopped.
-/

namespace ChatRelay.Json

/-- A value, or an error that concerns the value as a whole. -/
abbrev Judged (α : Type) := Except Cause α

structure Limits where
  /-- A bound on the number of items or members. -/
  bound : Nat
  /-- The remaining nesting depth. -/
  depth : Nat
  embedded : Embedded

/-- The limits inside a bracket, if the depth is not exhausted. -/
def Limits.inner? (l : Limits) : Option Limits :=
  match l.depth with
  | 0 => none
  | depth + 1 => some { l with depth }

/-- The limits for a whole text. -/
def Limits.ofText (text : Bytes) : Limits :=
  ⟨text.length, depthLimit, embeddedIn text⟩

/-- A field of a record whose parsed fields are collected in `σ`. -/
structure Field (σ : Type) where
  name : String
  /-- Whether the field is present. -/
  isSet : σ → Bool
  /-- Read the value of the field. -/
  read : Limits → Reader (Judged (σ → σ))

/-- The description of a record type. -/
structure Shape (σ α : Type) where
  /-- The name of the record in error messages. -/
  name : String
  /-- The initial state. -/
  start : σ
  /-- The fields in order of declaration. -/
  fields : List (Field σ)
  /-- The record, or the name of the first missing field. -/
  finish : σ → Except String α

namespace Shape

variable {σ α : Type}

/-- Read the members of an object until it ends or an error occurs. -/
def readMembers (shape : Shape σ α) (limits : Limits) :
    (bound : Nat) → (first : Bool) → σ → Reader (Judged σ)
  | 0, _, s, text => .ok (.ok s, text)
  | bound + 1, first, s, text => do
    match ← nextKey first text with
    | none => return (.ok s, text)
    | some text =>
      let (key, rest) ← readString text
      match shape.fields.find? fun f => f.name = key with
      | none =>
        let (_, rest) ← skipValue (← readColon rest)
        readMembers shape limits bound false s rest
      | some field =>
        if field.isSet s then return (.error (.duplicateField key), rest)
        else
          match ← field.read limits (← readColon rest) with
          | (.ok set, rest) => readMembers shape limits bound false (set s) rest
          | (.error cause, rest) => return (.error cause, rest)

/-- Read the items of a list as the fields in order until it ends or an error
occurs. -/
def readItems (limits : Limits) :
    (fields : List (Field σ)) → (first : Bool) → σ → Reader (Judged σ)
  | [], _, s, text => .ok (.ok s, text)
  | field :: fields, first, s, text => do
    match ← nextItem first text with
    | none => return (.ok s, text)
    | some text =>
      match ← field.read limits text with
      | (.ok set, rest) => readItems limits fields false (set s) rest
      | (.error cause, rest) => return (.error cause, rest)

/-- The error for a missing field of an object. -/
def finishObject (shape : Shape σ α) (s : σ) : Judged α :=
  (shape.finish s).mapError .missingField

/-- The expectation that a list with too few items violates. -/
def expectedItems (shape : Shape σ α) : String :=
  s!"{shape.name} with {shape.fields.length} elements"

/-- The error for a missing field of a list, by its number. -/
def finishList (shape : Shape σ α) (s : σ) : Judged α :=
  (shape.finish s).mapError fun name =>
    .wrongLength (shape.fields.findIdx fun f => f.name = name)
      shape.expectedItems

/-- The unread rest of an object after an error about the record. -/
def behindObject (text : Bytes) : Bytes :=
  match skipBlanks text with
  | b :: rest => if b = 0x7D then rest else b :: rest
  | [] => []

/-- The unread rest of a list after an error about the record. -/
def behindList (text : Bytes) : Bytes :=
  match skipBlanks text with
  | b :: rest =>
    if b = 0x5D then rest else if b = 0x2C then skipBlanks rest else b :: rest
  | [] => []

def read (shape : Shape σ α) (limits : Limits) : Reader α := fun text => do
  let (b, rest) ← toValue text
  if b = 0x7B then
    match limits.inner? with
    | none => .error (.here .tooDeep rest)
    | some limits =>
      let (judged, rest) ← shape.readMembers limits limits.bound true
        shape.start rest
      match judged.bind shape.finishObject with
      | .ok a => return (a, ← closeObject rest)
      | .error cause => .error (.here cause (behindObject rest))
  else if b = 0x5B then
    match limits.inner? with
    | none => .error (.here .tooDeep rest)
    | some limits =>
      let (judged, rest) ← readItems limits shape.fields true shape.start rest
      match judged.bind shape.finishList with
      | .ok a => return (a, ← closeList rest)
      | .error cause => .error (.here cause (behindList rest))
  else .error (wrongType shape.name b rest)

/-- Parse a text that consists of one record. -/
def parse (shape : Shape σ α) (text : Bytes) : Except Error α :=
  readAll (shape.read (.ofText text)) text

end Shape

def readText : Reader String := readOnlyString "a string"

def readOptional {α : Type} (read : Reader α) : Reader (Option α) :=
  fun text => do
  let (b, rest) ← toValue text
  if b = 0x6E then return (none, (← readWord nullTail rest).2)
  else
    let (a, rest) ← read (b :: rest)
    return (some a, rest)

/-- Read an integer in the given range. -/
def readInteger (expected : String) (least greatest : Int) : Reader Int :=
  fun text => do
  let (b, rest) ← toValue text
  if b = 0x2D ∨ isDigit b then
    let (n, rest) ← if b = 0x2D then readNumber true rest
      else readNumber false (b :: rest)
    match n with
    | .int i =>
      if least ≤ i ∧ i ≤ greatest then return (i, rest)
      else .error (.here (.wrongInteger i expected) rest)
    | .real x => .error (.here (.wrongType (.real x) expected) rest)
  else .error (wrongType expected b rest)

/-- Read an object with arbitrary keys. -/
def readMap (limits : Limits) : Reader Members := fun text => do
  let (b, rest) ← toValue text
  if b = 0x7B then
    match limits.inner? with
    | none => .error (.here .tooDeep rest)
    | some limits =>
      let value := readValue limits.bound (some limits.embedded) limits.depth
      let (members, rest) ← Json.readMembers value limits.bound true [] rest
      return (members, ← closeObject rest)
  else .error (wrongType "a map" b rest)

def readAny (limits : Limits) : Reader Value :=
  readValue limits.bound (some limits.embedded) limits.depth

/-- The field that is read by `read` and stored by `set`. -/
def Field.of {σ α : Type} (name : String) (isSet : σ → Bool)
    (read : Limits → Reader α) (set : α → σ → σ) : Field σ where
  name := name
  isSet := isSet
  read limits text :=
  (read limits text).map fun (a, rest) => (.ok (set a), rest)

/-- The value of a mandatory field. -/
def required {α : Type} (name : String) (value : Option α) : Except String α :=
  value.elim (.error name) .ok

end ChatRelay.Json
