import ChatRelay.Json.Token
/-!
# Reading values

`readValue` reads one value of bounded depth, and `parse` reads a text that
consists of one value. An object whose first key is the reserved key and whose
value is a string is read as the value embedded in that string.
-/

namespace ChatRelay.Json

/-- The greatest nesting depth of a value. -/
def depthLimit : Nat := 127

/-- The key that marks an embedded value. -/
def reservedKey : String := "$serde_json::private::RawValue"

/-- Skip whitespace. A value has to follow. -/
def toValue (text : Bytes) : Except Fault (UInt8 × Bytes) :=
  match skipBlanks text with
  | [] => .error (.next .endInValue [])
  | b :: rest => .ok (b, rest)

def readColon (text : Bytes) : Except Fault Bytes :=
  match skipBlanks text with
  | [] => .error (.next .endInObject [])
  | b :: rest =>
    if b = 0x3A then .ok rest else .error (.here .expectedColon rest)

/-- Read the closing bracket of a list. -/
def closeList (text : Bytes) : Except Fault Bytes :=
  match skipBlanks text with
  | [] => .error (.next .endInList [])
  | b :: rest =>
    if b = 0x5D then .ok rest
    else if b = 0x2C then
      match skipBlanks rest with
      | c :: behind =>
        .error (.here (if c = 0x5D then .trailingComma else .trailingCharacters)
          behind)
      | [] => .error (.here .trailingCharacters [])
    else .error (.here .trailingCharacters rest)

/-- Read the closing brace of an object. -/
def closeObject (text : Bytes) : Except Fault Bytes :=
  match skipBlanks text with
  | [] => .error (.next .endInObject [])
  | b :: rest =>
    if b = 0x7D then .ok rest
    else if b = 0x2C then .error (.here .trailingComma rest)
    else .error (.here .trailingCharacters rest)

/-- Read up to the next item of a list, or up to its closing bracket if there is
none. -/
def nextItem (first : Bool) (text : Bytes) : Except Fault (Option Bytes) :=
  match skipBlanks text with
  | [] => .error (.next .endInList [])
  | b :: rest =>
    if b = 0x5D then .ok none
    else if first then .ok (some (b :: rest))
    else if b = 0x2C then
      match skipBlanks rest with
      | [] => .error (.next .endInValue [])
      | c :: behind =>
        if c = 0x5D then .error (.here .trailingComma behind)
        else .ok (some (c :: behind))
    else .error (.here .expectedCommaOrListEnd rest)

/-- Read the opening quote of the next key of an object, or up to the closing
brace if there is none. -/
def nextKey (first : Bool) (text : Bytes) : Except Fault (Option Bytes) :=
  match skipBlanks text with
  | [] => .error (.next .endInObject [])
  | b :: rest =>
    if b = 0x7D then .ok none
    else if first then
      if b = 0x22 then .ok (some rest) else .error (.here .keyNotString rest)
    else if b = 0x2C then
      match skipBlanks rest with
      | [] => .error (.next .endInValue [])
      | c :: behind =>
        if c = 0x22 then .ok (some behind)
        else if c = 0x7D then .error (.here .trailingComma behind)
        else .error (.here .keyNotString behind)
    else .error (.here .expectedCommaOrObjectEnd rest)

/-- The fault of a value of the wrong type, given by its first byte and the
bytes after it. -/
def wrongType (expected : String) (b : UInt8) (rest : Bytes) : Fault :=
  let afterWord (word : Bytes) (found : Found) : Fault :=
    match readWord word rest with
    | .ok (_, rest) => .here (.wrongType found expected) rest
    | .error fault => fault
  let afterNumber (read : Except Fault (Number × Bytes)) : Fault :=
    match read with
    | .ok (n, rest) => .here (.wrongType (.ofValue (.number n)) expected) rest
    | .error fault => fault
  if b = 0x6E then afterWord nullTail .null
  else if b = 0x74 then afterWord trueTail (.bool true)
  else if b = 0x66 then afterWord falseTail (.bool false)
  else if b = 0x2D then afterNumber (readNumber true rest)
  else if isDigit b then afterNumber (readNumber false (b :: rest))
  else if b = 0x22 then
    match readString rest with
    | .ok (s, rest) => .here (.wrongType (.string s) expected) rest
    | .error fault => fault
  else if b = 0x5B then .here (.wrongType .list expected) (b :: rest)
  else if b = 0x7B then .here (.wrongType .map expected) (b :: rest)
  else .here .expectedValue rest

/-- Read a value that has to be a string. -/
def readOnlyString (expected : String) : Reader String := fun text => do
  let (b, rest) ← toValue text
  if b = 0x22 then readString rest else .error (wrongType expected b rest)

/-- Read the remaining items of a list, of which there are at most `bound`. -/
def readItems (item : Reader Value) :
    (bound : Nat) → (read : List Value) → Reader (List Value)
  | 0, read, text => .ok (read.reverse, text)
  | bound + 1, read, text =>
    match nextItem read.isEmpty text with
    | .error fault => .error fault
    | .ok none => .ok (read.reverse, text)
    | .ok (some text) =>
      match item text with
      | .error fault => .error fault
      | .ok (v, rest) => readItems item bound (v :: read) rest

/-- Read the value of a member. -/
def readMemberValue (item : Reader Value) : Reader Value := fun text => do
  item (← readColon text)

/-- Read the remaining members of an object, of which there are at most
`bound`. -/
def readMembers (item : Reader Value) :
    (bound : Nat) → (first : Bool) → (read : Members) → Reader Members
  | 0, _, read, text => .ok (read, text)
  | bound + 1, first, read, text =>
    match nextKey first text with
    | .error fault => .error fault
    | .ok none => .ok (read, text)
    | .ok (some text) =>
      match readString text with
      | .error fault => .error fault
      | .ok (key, rest) =>
        match readMemberValue item rest with
        | .error fault => .error fault
        | .ok (v, rest) => readMembers item bound false (read.insert key v) rest

abbrev Embedded := String → Except Error Value

/-- Read the string after the reserved key, and the value embedded in it. -/
def readEmbedded (embedded : Embedded) : Reader Value := fun text => do
  let (s, rest) ← readOnlyString "raw value" (← readColon text)
  match embedded s with
  | .ok v => return (v, rest)
  | .error e => .error ⟨e.cause, .position (e.position.getD .start)⟩

/-- Read an object after its opening brace. If its first key is the reserved
key, there must be no other members. -/
def readObject (bound : Nat) (embedded : Option Embedded)
    (item : Reader Value) : Reader Value :=
  fun text => do
    match ← nextKey true text with
    | none => return (.object [], ← closeObject text)
    | some text =>
      let (key, rest) ← readString text
      match embedded, decide (key = reservedKey) with
      | some embedded, true =>
        let (v, rest) ← readEmbedded embedded rest
        return (v, ← closeObject rest)
      | _, _ =>
        let (v, rest) ← readMemberValue item rest
        let (members, rest) ← readMembers item bound false [(key, v)] rest
        return (.object members, ← closeObject rest)

/-- Read a list after its opening bracket. -/
def readList (bound : Nat) (item : Reader Value) : Reader Value :=
  fun text => do
  let (items, rest) ← readItems item bound [] text
  return (.array items, ← closeList rest)

/-- Read a value whose items and members are read by `item`. Without `item` it
must not have any. -/
def readWith (bound : Nat) (embedded : Option Embedded)
    (item : Option (Reader Value)) :
    Reader Value := fun text => do
  let (b, rest) ← toValue text
  if b = 0x6E then
    return (.null, (← readWord nullTail rest).2)
  else if b = 0x74 then
    return (.bool true, (← readWord trueTail rest).2)
  else if b = 0x66 then
    return (.bool false, (← readWord falseTail rest).2)
  else if b = 0x2D then
    let (n, rest) ← readNumber true rest
    return (.number n, rest)
  else if isDigit b then
    let (n, rest) ← readNumber false (b :: rest)
    return (.number n, rest)
  else if b = 0x22 then
    let (s, rest) ← readString rest
    return (.string s, rest)
  else if b = 0x5B then
    match item with
    | none => .error (.here .tooDeep rest)
    | some item => readList bound item rest
  else if b = 0x7B then
    match item with
    | none => .error (.here .tooDeep rest)
    | some item => readObject bound embedded item rest
  else .error (.here .expectedValue rest)

/-- Read a value of nesting depth at most `depth`. -/
def readValue (bound : Nat) (embedded : Option Embedded) :
    (depth : Nat) → Reader Value
  | 0 => readWith bound embedded none
  | depth + 1 => readWith bound embedded (some (readValue bound embedded depth))

/-- Read the end of a text. -/
def readEnd (text : Bytes) : Except Fault Unit :=
  match skipBlanks text with
  | [] => .ok ()
  | _ :: rest => .error (.here .trailingCharacters rest)

def readAll {α : Type} (read : Reader α) (text : Bytes) : Except Error α :=
  match read text with
  | .error fault => .error (fault.locate text)
  | .ok (a, rest) =>
    match readEnd rest with
    | .error fault => .error (fault.locate text)
    | .ok () => .ok a

/-- Parse a text with values embedded at most `levels` deep. -/
def parseWithin : (levels : Nat) → Bytes → Except Error Value
  | 0, text => .error ((Fault.here .tooDeep text).locate text)
  | levels + 1, text =>
    let embedded s := parseWithin levels (Utf8.ofString s)
    readAll (readValue text.length (some embedded) depthLimit) text

/-- Parse a text. An embedded text is shorter than the text that contains it, so
the length of the text bounds the embedding depth. -/
def parse (text : Bytes) : Except Error Value :=
  parseWithin (text.length + 1) text

/-- The reader of values embedded in the given text. -/
def embeddedIn (text : Bytes) : Embedded := fun s =>
  parseWithin text.length (Utf8.ofString s)

end ChatRelay.Json
