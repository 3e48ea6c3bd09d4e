import ChatRelay.Json.Value
import ChatRelay.Text.Utf8
/-!
# Writing JSON

Compact output. Strings escape only the quote, the backslash and control
characters, and floating point numbers are written with the fewest digits that
round-trip.
-/

namespace ChatRelay.Json

/-- The layout of floating point numbers. -/
def numberLayout : Layout where
  leastPlain := -5
  leastScientific := 16
  plusSign := ['+']

def hexDigit (n : Nat) : Char :=
  if n < 10 then Char.ofNat (48 + n) else Char.ofNat (87 + n)

/-- A character inside a string. -/
def escapeChar (c : Char) : List Char :=
  if c = '"' then ['\\', '"']
  else if c = '\\' then ['\\', '\\']
  else if c = '\n' then ['\\', 'n']
  else if c = '\r' then ['\\', 'r']
  else if c = '\t' then ['\\', 't']
  else if c = '\x08' then ['\\', 'b']
  else if c = '\x0c' then ['\\', 'f']
  else if c.toNat < 0x20 then
    ['\\', 'u', '0', '0', hexDigit (c.toNat / 16), hexDigit (c.toNat % 16)]
  else [c]

def writeString (s : String) : List Char :=
  '"' :: s.toList.flatMap escapeChar ++ ['"']

def writeInt (i : Int) : List Char :=
  if i < 0 then '-' :: Layout.digitsOf i.natAbs else Layout.digitsOf i.natAbs

def writeReal (x : Binary64) : List Char :=
  numberLayout.render x.negative x.shortest

def Number.write : Number → List Char
  | .int i => writeInt i
  | .real x => writeReal x

mutual

/-- The compact text of a value. -/
def Value.write : Value → List Char
  | .null => "null".toList
  | .bool true => "true".toList
  | .bool false => "false".toList
  | .number n => n.write
  | .string s => writeString s
  | .array items => '[' :: writeItems items ++ [']']
  | .object members => '{' :: writeMembers members ++ ['}']

/-- The items of a list, separated by commas. -/
def writeItems : List Value → List Char
  | [] => []
  | [v] => v.write
  | v :: rest => v.write ++ ',' :: writeItems rest

/-- The members of an object, separated by commas. -/
def writeMembers : List (String × Value) → List Char
  | [] => []
  | [(key, v)] => writeString key ++ ':' :: v.write
  | (key, v) :: rest =>
    writeString key ++ ':' :: v.write ++ ',' :: writeMembers rest

end

/-- The compact text as a string. -/
def Value.text (v : Value) : String := String.ofList v.write

/-- The compact text as UTF-8 bytes. -/
def Value.bytes (v : Value) : Bytes := Utf8.encode v.write

example :
    (Value.object
      [("a", .array [.null, .bool true, .number (.int (-5))])]).text =
    "\x7b\"a\":[null,true,-5]\x7d" := by decide +kernel

example : (Value.string "é\n\"\x01").text = "\"é\\n\\\"\\u0001\"" := by
  decide +kernel

end ChatRelay.Json
