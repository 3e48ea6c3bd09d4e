import ChatRelay.Json.Writer
import ChatRelay.Text.Quoted
/-!
# JSON errors

A `Cause` is a kind of error, and a `Fault` also has a place. During parsing a
place is given by the bytes that are still unread, which `Fault.locate` converts
to a line and a column. A fault of a value as a whole has no place.
-/

namespace ChatRelay.Json

/-- What an error reports to have been found. -/
inductive Found where
  | null
  | bool (b : Bool)
  | int (i : Int)
  | real (x : Binary64)
  | string (s : String)
  | list
  | map
  deriving DecidableEq, Repr

namespace Found

def ofValue : Value → Found
  | .null => .null
  | .bool b => .bool b
  | .number (.int i) => .int i
  | .number (.real x) => .real x
  | .string s => .string s
  | .array _ => .list
  | .object _ => .map

/-- The wording in an error message. -/
def describe : Found → String
  | .null => "null"
  | .bool b => s!"boolean `{b}`"
  | .int i => s!"integer `{i}`"
  | .real x => s!"floating point `{String.ofList (writeReal x)}`"
  | .string s => s!"string {Text.quoted s}"
  | .list => "sequence"
  | .map => "map"

end Found

/-- The kinds of errors. -/
inductive Cause where
  | endInList
  | endInObject
  | endInString
  | endInValue
  | expectedColon
  | expectedCommaOrListEnd
  | expectedCommaOrObjectEnd
  | expectedWord
  | expectedValue
  | invalidEscape
  | invalidNumber
  | numberOutOfRange
  | invalidText
  | controlCharacter
  | keyNotString
  | loneSurrogate
  | unpairedSurrogate
  | trailingComma
  | trailingCharacters
  | tooDeep
  | missingField (name : String)
  | duplicateField (name : String)
  | wrongType (found : Found) (expected : String)
  | wrongInteger (i : Int) (expected : String)
  | wrongLength (count : Nat) (expected : String)
  | refused (reason : String)
  deriving DecidableEq, Repr

namespace Cause

/-- Whether the text ended inside the value. -/
def isEnd : Cause → Bool
  | endInList | endInObject | endInString | endInValue => true
  | _ => false

def message : Cause → String
  | endInList => "EOF while parsing a list"
  | endInObject => "EOF while parsing an object"
  | endInString => "EOF while parsing a string"
  | endInValue => "EOF while parsing a value"
  | expectedColon => "expected `:`"
  | expectedCommaOrListEnd => "expected `,` or `]`"
  | expectedCommaOrObjectEnd => "expected `,` or `\x7d`"
  | expectedWord => "expected ident"
  | expectedValue => "expected value"
  | invalidEscape => "invalid escape"
  | invalidNumber => "invalid number"
  | numberOutOfRange => "number out of range"
  | invalidText => "invalid unicode code point"
  | controlCharacter =>
    "control character (\\u0000-\\u001F) found while parsing a string"
  | keyNotString => "key must be a string"
  | loneSurrogate => "lone leading surrogate in hex escape"
  | unpairedSurrogate => "unexpected end of hex escape"
  | trailingComma => "trailing comma"
  | trailingCharacters => "trailing characters"
  | tooDeep => "recursion limit exceeded"
  | missingField name => s!"missing field `{name}`"
  | duplicateField name => s!"duplicate field `{name}`"
  | wrongType found expected =>
    s!"invalid type: {found.describe}, expected {expected}"
  | wrongInteger i expected =>
    s!"invalid value: integer `{i}`, expected {expected}"
  | wrongLength count expected =>
    s!"invalid length {count}, expected {expected}"
  | refused reason => reason

end Cause

/-- A line, counted from one, and the number of bytes read of it. -/
structure Position where
  line : Nat
  column : Nat
  deriving DecidableEq, Repr

namespace Position

/-- The position at the start of a text. -/
def start : Position := ⟨1, 0⟩

/-- The position after one more byte. -/
def next (p : Position) (b : UInt8) : Position :=
  if b = 0x0A then ⟨p.line + 1, 0⟩ else ⟨p.line, p.column + 1⟩

/-- The position after a byte string. -/
def after (bytes : Bytes) : Position := bytes.foldl next start

end Position

/-- The place of a fault: before the given unread bytes, or at a known
position. -/
inductive Place where
  | unread (rest : Bytes)
  | position (p : Position)
  deriving DecidableEq, Repr

structure Fault where
  cause : Cause
  place : Place
  deriving DecidableEq, Repr

/-- An error with its position. -/
structure Error where
  cause : Cause
  position : Option Position
  deriving DecidableEq, Repr

namespace Fault

/-- A fault before the given unread bytes. -/
def here (cause : Cause) (rest : Bytes) : Fault := ⟨cause, .unread rest⟩

/-- A fault at the next byte, which counts as read. -/
def next (cause : Cause) (rest : Bytes) : Fault := ⟨cause, .unread rest.tail⟩

/-- The error of a text, with its position. -/
def locate (text : Bytes) (fault : Fault) : Error where
  cause := fault.cause
  position := some <| match fault.place with
    | .unread rest => Position.after (text.take (text.length - rest.length))
    | .position p => p

end Fault

namespace Error

/-- The error of a value without a position. -/
def ofCause (cause : Cause) : Error := ⟨cause, none⟩

def message (e : Error) : String :=
  match e.position with
  | none => e.cause.message
  | some p => s!"{e.cause.message} at line {p.line} column {p.column}"

end Error

/-- A parser step: the result and the unread bytes, or a fault. -/
abbrev Reader (α : Type) := Bytes → Except Fault (α × Bytes)

example : (Fault.next .expectedValue [0x78]).locate [0x0A, 0x20, 0x78] =
    ⟨.expectedValue, some ⟨2, 2⟩⟩ := by decide

end ChatRelay.Json
