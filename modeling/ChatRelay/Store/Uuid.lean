import ChatRelay.Text.Integer
import ChatRelay.Text.Split
/-!
# UUIDs

An identifier of 128 bits. It is written as 32 hexadecimal digits in five
groups. The parser also accepts the simple, braced and URN forms.
-/

namespace ChatRelay

structure Uuid where
  bits : BitVec 128
  deriving DecidableEq, Repr

/-- The ways in which parsing an identifier can fail. -/
inductive UuidError where
  | invalidCharacter (c : Char) (index : Nat)
  | invalidLength (found : Nat)
  | invalidGroupCount (found : Nat)
  | invalidGroupLength (group expected found : Nat)
  deriving DecidableEq, Repr

def UuidError.message : UuidError → String
  | invalidCharacter c index =>
    "invalid character: found \x60" ++ String.singleton c ++ s!"\x60 at {index}"
  | invalidLength found => s!"invalid length: found {found}"
  | invalidGroupCount found =>
    s!"invalid group count: expected 5, found {found}"
  | invalidGroupLength group expected found =>
    s!"invalid group length in group {group}: " ++
      s!"expected {expected}, found {found}"

namespace Uuid

def nil : Uuid := ⟨0⟩

instance : Inhabited Uuid := ⟨nil⟩

/-- The version 4 identifier with the given random bits. -/
def random (chosen : Nat) : Uuid :=
  ⟨BitVec.ofNat 48 (chosen / Nat.pow 2 74) ++ 4#4 ++
    BitVec.ofNat 12 (chosen / Nat.pow 2 62) ++ 2#2 ++ BitVec.ofNat 62 chosen⟩

/-- The lengths of the five groups. -/
def groupLengths : List Nat := [8, 4, 4, 4, 12]

/-- The hexadecimal digits of an identifier. -/
def digits (u : Uuid) : List Char :=
  (List.range 32).map
    fun i => Nat.digitChar (u.bits.toNat / Nat.pow 16 (31 - i) % 16)

/-- Split digits into groups of the given lengths. -/
def grouped : List Nat → List Char → List (List Char)
  | [], _ => []
  | n :: lengths, text => text.take n :: grouped lengths (text.drop n)

def text (u : Uuid) : String :=
  String.ofList (['-'].intercalate (grouped groupLengths u.digits))

/-- The identifier with 32 digits in one group or in five groups. -/
def ofDigits? (text : List Char) : Option Uuid :=
  let groups := Text.splitAt '-' text
  if groups.map List.length = [32] ∨ groups.map List.length = groupLengths then
    (Text.value? 16 groups.flatten).map fun n => ⟨BitVec.ofNat 128 n⟩
  else none

/-- The URN scheme, in either case. -/
def scheme : List Char := "urn:uuid:".toList

/-- The length of the longest form. -/
def longest : Nat := scheme.length + 36

/-- The rest of a text after the scheme. -/
def behindScheme? (text : List Char) : Option (List Char) :=
  if (text.take scheme.length).map Char.toLower = scheme then
    some (text.drop scheme.length)
  else none

/-- The 36 bytes of the hyphenated form, if the length of the text admits it. -/
def groups? (text : List Char) : Option (List Char) :=
  let size := Text.byteSize text
  if size = 36 then some text
  else if size = 38 then Text.between? '\x7b' '\x7d' text
  else if size = longest then behindScheme? text
  else none

/-- The first invalid character with its index. -/
def strange? (index : Nat) : List Char → Option (Char × Nat)
  | [] => none
  | c :: rest =>
    if c = '-' ∨ (Text.digit? 16 c).isSome then strange? (index + 1) rest
    else some (c, index)

/-- The first group of a wrong length. -/
def wrongGroup? (group : Nat) : (expected found : List Nat) → Option UuidError
  | e :: expected, n :: found =>
    if e = n then wrongGroup? (group + 1) expected found
    else some (.invalidGroupLength group e n)
  | _, _ => none

/-- The error of digits and hyphens starting at the given index. The length
reported for the last group counts everything after the first 24 bytes. -/
def fault (size offset : Nat) (inner : List Char) : UuidError :=
  match strange? offset inner with
  | some (c, index) => .invalidCharacter c index
  | none =>
    let found := (Text.splitAt '-' inner).map List.length
    if found.length ≠ 5 then .invalidGroupCount found.length
    else
      (wrongGroup? 0 (groupLengths.take 4) found).getD
        (.invalidGroupLength 4 12 (size - 24))

/-- The error of a text whose length does not determine its form. -/
def explain (text : List Char) : UuidError :=
  let size := Text.byteSize text
  match Text.between? '\x7b' '\x7d' text, behindScheme? text with
  | some inner, _ => fault size 1 inner
  | none, some inner => fault size scheme.length inner
  | none, none =>
    match fault size 0 text with
    | .invalidGroupCount 1 => .invalidLength size
    | other => other

def parse (s : String) : Except UuidError Uuid :=
  let text := s.toList
  let size := Text.byteSize text
  if longest < size then .error (.invalidLength size)
  else match groups? text with
    | some inner => (ofDigits? inner).elim (.error (fault size 0 inner)) .ok
    | none => (ofDigits? text).elim (.error (explain text)) .ok

example :
    (parse "URN:uuid:00000000-0000-4000-8000-00000000000A").toOption =
      some (random 10) ∧
    (random 10).text = "00000000-0000-4000-8000-00000000000a" := by
  decide +kernel

end Uuid
end ChatRelay
