import ChatRelay.Json.Skip
/-!
# Literals, strings and numbers

The readers of scalar values. Each continues after the bytes that determined its
kind, and reports the fault of the first byte that does not continue the token.
-/

namespace ChatRelay.Json

/-- Read the rest of a literal. -/
def readWord : Bytes → Reader Unit
  | [], text => .ok ((), text)
  | _ :: _, [] => .error (.here .endInValue [])
  | c :: word, b :: rest =>
    if b = c then readWord word rest else .error (.here .expectedWord rest)

/-- The literals without their first letters. -/
def nullTail : Bytes := [0x75, 0x6C, 0x6C]
@[inherit_doc nullTail] def trueTail : Bytes := [0x72, 0x75, 0x65]
@[inherit_doc nullTail] def falseTail : Bytes := [0x61, 0x6C, 0x73, 0x65]

/-- The state of the string reader. -/
inductive StringMode where
  | plain
  /-- After a backslash. -/
  | escape
  /-- Inside the digits of an escape: the number of digits left, and the value
  of the digits so far if they are valid. -/
  | hex (left : Nat) (value : Option Nat)
  /-- After the escape of a leading surrogate. -/
  | paired (leading : Nat)
  /-- After the backslash that follows a leading surrogate. -/
  | pairedEscape (leading : Nat)
  /-- Inside the digits of the escape that follows a leading surrogate. -/
  | pairedHex (leading : Nat) (left : Nat) (value : Option Nat)
  deriving DecidableEq, Repr

/-- The character denoted by an escape letter. -/
def escaped? (b : UInt8) : Option Char :=
  if b = 0x22 then some '"'
  else if b = 0x5C then some '\\'
  else if b = 0x2F then some '/'
  else if b = 0x62 then some '\x08'
  else if b = 0x66 then some '\x0c'
  else if b = 0x6E then some '\n'
  else if b = 0x72 then some '\r'
  else if b = 0x74 then some '\t'
  else none

def moreHex (value : Option Nat) (b : UInt8) : Option Nat := do
  return (← value) * 16 + (← hexValue? b)

/-- Leading and trailing surrogates. -/
def isLeading (n : Nat) : Bool := 0xD800 ≤ n && n < 0xDC00
@[inherit_doc isLeading] def isTrailing (n : Nat) : Bool :=
  0xDC00 ≤ n && n < 0xE000

/-- The character encoded by a surrogate pair. -/
def pairChar (leading trailing : Nat) : Char :=
  Char.ofNat (0x10000 + (leading - 0xD800) * 0x400 + (trailing - 0xDC00))

/-- The result of one transition of the string reader. -/
inductive StringStep where
  | more (mode : StringMode)
  /-- The given bytes are appended to the string. -/
  | add (bytes : Bytes)
  /-- The string is complete. -/
  | stop
  | wrong (cause : Cause)
  deriving DecidableEq, Repr

/-- The transition at the end of an escape. -/
def hexStep : Option Nat → StringStep
  | none => .wrong .invalidEscape
  | some n =>
    if isTrailing n then .wrong .loneSurrogate
    else if isLeading n then .more (.paired n)
    else .add (Utf8.encodeChar (Char.ofNat n))

/-- The transition at the end of the second escape of a pair. -/
def pairedHexStep (leading : Nat) : Option Nat → StringStep
  | none => .wrong .invalidEscape
  | some n =>
    if isTrailing n then .add (Utf8.encodeChar (pairChar leading n))
    else .wrong .loneSurrogate

/-- The transition function of the string reader. -/
def stringStep (mode : StringMode) (b : UInt8) : StringStep :=
  match mode with
  | .plain =>
    if b = 0x22 then .stop
    else if b = 0x5C then .more .escape
    else if b < 0x20 then .wrong .controlCharacter
    else .add [b]
  | .escape =>
    if b = 0x75 then .more (.hex 4 (some 0))
    else match escaped? b with
      | some c => .add (Utf8.encodeChar c)
      | none => .wrong .invalidEscape
  | .hex left value =>
    let value := moreHex value b
    if 1 < left then .more (.hex (left - 1) value) else hexStep value
  | .paired leading =>
    if b = 0x5C then .more (.pairedEscape leading)
    else .wrong .unpairedSurrogate
  | .pairedEscape leading =>
    if b = 0x75 then .more (.pairedHex leading 4 (some 0))
    else .wrong .unpairedSurrogate
  | .pairedHex leading left value =>
    let value := moreHex value b
    if 1 < left then .more (.pairedHex leading (left - 1) value)
    else pairedHexStep leading value

/-- Continue reading a string whose bytes so far are given in reverse. -/
def readStringFrom (mode : StringMode) (read : Bytes) : Reader Bytes
  | [] => .error (.here .endInString [])
  | b :: rest =>
    match stringStep mode b with
    | .more mode => readStringFrom mode read rest
    | .add bytes => readStringFrom .plain (bytes.reverse ++ read) rest
    | .stop => .ok (read.reverse, rest)
    | .wrong cause => .error (.here cause rest)

/-- Read a string after its opening quote. An invalid encoding is reported at
the place obtained by counting back from the closing quote in the unescaped
bytes. -/
def readString : Reader String := fun text => do
  let (bytes, rest) ← readStringFrom .plain [] text
  match Utf8.toString? bytes with
  | some s => return (s, rest)
  | none =>
    let behind := (Utf8.undecoded bytes).length + rest.length
    .error (.here .invalidText (text.drop (text.length - behind)))

/-- The greatest integer that is accumulated digit by digit. -/
def wholeLimit : Nat := Text.maxNatural

/-- The greatest exponent that is accumulated digit by digit. -/
def exponentLimit : Nat := 2147483647

/-- Drop the digits at the front. -/
def dropDigits (text : Bytes) : Bytes := text.dropWhile isDigit

/-- Accumulate digits while the number stays within the limit. Returns the
number, the count of accumulated digits, and the rest, which starts with a digit
only if accumulating it would exceed the limit. -/
def readDigits (limit value count : Nat) : Bytes → Nat × Nat × Bytes
  | [] => (value, count, [])
  | b :: rest =>
    if isDigit b ∧ value * 10 + (b.toNat - 0x30) ≤ limit then
      readDigits limit (value * 10 + (b.toNat - 0x30)) (count + 1) rest
    else (value, count, b :: rest)

/-- A floating point number, or an error if it is out of range. -/
def realOf (negative : Bool) (digits : Nat) (exponent : Int) (rest : Bytes) :
    Except Fault (Number × Bytes) :=
  match Binary64.ofDecimal? digits exponent with
  | some x => .ok (.real (if negative then x.neg else x), rest)
  | none => .error (.here .numberOutOfRange rest)

def atExponent : Bytes → Bool
  | b :: _ => b = 0x65 || b = 0x45
  | [] => false

def atPoint : Bytes → Bool
  | b :: _ => b = 0x2E
  | [] => false

def atDigit : Bytes → Bool
  | b :: _ => isDigit b
  | [] => false

/-- Read the optional sign of an exponent. -/
def readSign : Bytes → Bool × Bytes
  | b :: rest =>
    if b = 0x2B then (false, rest) else if b = 0x2D then (true, rest)
      else (false, b :: rest)
  | [] => (false, [])

/-- Read an exponent after its letter. If it exceeds the limit, the number is
zero or out of range, depending on the sign of the exponent. -/
def readExponent (negative : Bool) (digits : Nat) (before : Int)
    (text : Bytes) : Except Fault (Number × Bytes) :=
  let (down, text) := readSign text
  match text with
  | [] => .error (.here .endInValue [])
  | b :: rest =>
    if !isDigit b then .error (.here .invalidNumber rest)
    else
      let (power, _, rest) := readDigits exponentLimit (b.toNat - 0x30) 1 rest
      if atDigit rest then
        if digits ≠ 0 ∧ !down then .error (.next .numberOutOfRange rest)
        else .ok (.real (.zero negative), dropDigits rest)
      else realOf negative digits
        (if down then before - power else before + power) rest

/-- Read a fraction after its point. Digits that would exceed the limit are
skipped. -/
def readFraction (negative : Bool) (digits : Nat) (before : Int)
    (text : Bytes) : Except Fault (Number × Bytes) :=
  let (digits, count, rest) := readDigits wholeLimit digits 0 text
  if count = 0 ∧ !atDigit rest then
    .error (if rest.isEmpty then .here .endInValue rest
      else .next .invalidNumber rest)
  else
    let exponent := before - count
    let rest := dropDigits rest
    if atExponent rest then readExponent negative digits exponent rest.tail
    else realOf negative digits exponent rest

/-- The value of a number without fraction and exponent. -/
def wholeNumber (negative : Bool) (n : Nat) (rest : Bytes) :
    Except Fault (Number × Bytes) :=
  if !negative then .ok (.int n, rest)
  else if n = 0 ∨ -(n : Int) < Text.minLong then realOf true n 0 rest
  else .ok (.int (-n), rest)

/-- Read the fraction and the exponent of a number. -/
def readNumberTail (negative : Bool) (n : Nat) (text : Bytes) :
    Except Fault (Number × Bytes) :=
  if atPoint text then readFraction negative n 0 text.tail
  else if atExponent text then readExponent negative n 0 text.tail
  else wholeNumber negative n text

/-- Continue reading an integer part that exceeds the limit. Each further digit
multiplies by ten. -/
def readLongNumber (negative : Bool) (n : Nat) (text : Bytes) :
    Except Fault (Number × Bytes) :=
  let rest := dropDigits text
  let power : Int := (text.length : Int) - rest.length
  if atPoint rest then readFraction negative n power rest.tail
  else if atExponent rest then readExponent negative n power rest.tail
  else realOf negative n power rest

/-- Read a number after its sign. -/
def readNumber (negative : Bool) : Reader Number
  | [] => .error (.here .endInValue [])
  | b :: rest =>
    if b = 0x30 then
      if atDigit rest then .error (.next .invalidNumber rest)
      else readNumberTail negative 0 rest
    else if isDigit b then
      let (n, _, rest) := readDigits wholeLimit (b.toNat - 0x30) 1 rest
      if atDigit rest then readLongNumber negative n rest
      else readNumberTail negative n rest
    else .error (.here .invalidNumber rest)

end ChatRelay.Json
