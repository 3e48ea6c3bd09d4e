import ChatRelay.Calendar.Date
import ChatRelay.Text.Split
/-!
# RFC 3339 timestamps

A timestamp consists of a date, a time of day with an optional fraction, and an
offset from UTC. It is converted to whole milliseconds since 1 January 1970,
UTC.
-/

namespace ChatRelay

/-- The ways in which parsing a timestamp can fail. -/
inductive TimeError where
  | tooShort
  | invalid
  | outOfRange
  | tooLong
  deriving DecidableEq, Repr

def TimeError.message : TimeError → String
  | tooShort => "premature end of input"
  | invalid => "input contains invalid characters"
  | outOfRange => "input is out of range"
  | tooLong => "trailing input"

namespace Rfc3339

/-- A parser of a part of a text, which returns the rest. -/
abbrev Part (α : Type) := List Char → Except TimeError (α × List Char)

/-- The digits at the front of a text, of which there must be at least one. -/
def digits : (count : Nat) → (value : Nat) → Part Nat
  | 0, value, text => .ok (value, text)
  | _ + 1, _, [] => .error .tooShort
  | count + 1, value, c :: rest =>
    if c.isDigit then digits count (value * 10 + (c.toNat - '0'.toNat)) rest
    else .error .invalid

/-- A number of exactly `n` digits. -/
def number (count : Nat) : Part Nat := digits count 0

def oneOf (allowed : List Char) : Part Unit
  | [] => .error .tooShort
  | c :: rest => if c ∈ allowed then .ok ((), rest) else .error .invalid

/-- The digits of a fraction of a second and their value in nanoseconds. Digits
after the ninth are ignored. -/
def fraction : Part Nat := fun text =>
  let found := text.takeWhile Char.isDigit
  match text with
  | [] => .error .tooShort
  | _ =>
    if found.isEmpty then .error .invalid
    else
      let value :=
        (found.take 9).foldl (fun n c => n * 10 + (c.toNat - '0'.toNat)) 0
      .ok (value * Nat.pow 10 (9 - min 9 found.length), text.drop found.length)

/-- An optional fraction after a decimal point. -/
def optionalFraction : Part Nat
  | '.' :: rest => fraction rest
  | text => .ok (0, text)

/-- The hours or minutes of an offset. A single byte is too short, whatever it
is. -/
def offsetNumber : Part Nat := fun text =>
  if Text.byteSize text < 2 then .error .tooShort else number 2 text

def offsetMinutes : Part Nat := fun text => do
  let (n, rest) ← offsetNumber text
  if n < 60 then return (n, rest) else .error .outOfRange

/-- The greatest offset, in minutes. -/
def maxOffset : Nat := 23 * 60 + 59

/-- The offset from UTC in minutes, not checked against `maxOffset`. -/
def offset : Part Int
  | [] => .error .tooShort
  | c :: rest =>
    if c = 'Z' ∨ c = 'z' then .ok (0, rest)
    else do
      let sign : Int ← if c = '+' then .ok 1
        else if c = '-' ∨ c = '\u2212' then .ok (-1) else .error .invalid
      let (hours, rest) ← offsetNumber rest
      let ((), rest) ← oneOf [':'] rest
      let (minutes, rest) ← offsetMinutes rest
      return (sign * (hours * 60 + minutes : Nat), rest)

/-- A parsed timestamp. -/
structure Written where
  date : Date
  hour : Nat
  minute : Nat
  /-- The value 60 stands for a leap second. -/
  second : Nat
  nanosecond : Nat
  /-- In minutes. -/
  offset : Int
  deriving DecidableEq, Repr

/-- The length of a timestamp without its fraction and its offset. -/
def fixedSize : Nat := 19

def date : Part Date := fun text => do
  let (year, rest) ← number 4 text
  let ((), rest) ← oneOf ['-'] rest
  let (month, rest) ← number 2 rest
  let ((), rest) ← oneOf ['-'] rest
  let (day, rest) ← number 2 rest
  let date : Date := ⟨year, month, day⟩
  if date.isValid then return (date, rest) else .error .outOfRange

/-- Parse a timestamp. A text shorter than `fixedSize` is too short, whatever it
contains. -/
def read (s : String) : Except TimeError Written := do
  let text := s.toList
  if Text.byteSize text < fixedSize then .error .tooShort
  else
    let (date, rest) ← date text
    let ((), rest) ← oneOf ['T', 't', ' '] rest
    let (hour, rest) ← number 2 rest
    let ((), rest) ← oneOf [':'] rest
    let (minute, rest) ← number 2 rest
    let ((), rest) ← oneOf [':'] rest
    let (second, rest) ← number 2 rest
    let (nanosecond, rest) ← optionalFraction rest
    if 24 ≤ hour ∨ 60 ≤ minute ∨ 60 < second then .error .outOfRange
    else
      let (offset, rest) ← offset rest
      if ¬ rest.isEmpty then .error .tooLong
      else if maxOffset < offset.natAbs then .error .outOfRange
      else return { date, hour, minute, second, nanosecond, offset }

/-- The seconds between 1970 and a timestamp, without its fraction. -/
def Written.seconds (w : Written) : Int :=
  w.date.dayNumber * 86400 + (w.hour * 3600 + w.minute * 60 + w.second : Nat) -
    w.offset * 60

/-- The whole milliseconds between 1970 and a timestamp. -/
def Written.milliseconds (w : Written) : Int :=
  w.seconds * 1000 + (w.nanosecond / 1000000 : Nat)

/-- The whole milliseconds between 1970 and the timestamp in a text. -/
def milliseconds (s : String) : Except TimeError Int :=
  (read s).map Written.milliseconds

end Rfc3339
end ChatRelay
