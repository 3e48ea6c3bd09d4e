import ChatRelay.Json.Fault
/-!
# Skipping a value

`Skip` is a pushdown automaton that recognises one JSON value byte by byte. It
checks the syntax, but neither the range of numbers, the pairing of surrogates
nor the encoding of strings, and it does not bound the depth. Its state
determines the rest of a run, so a text can be processed in arbitrary pieces.
-/

namespace ChatRelay.Json

/-- JSON whitespace. -/
def isBlank (b : UInt8) : Bool :=
  b = 0x20 || b = 0x0A || b = 0x09 || b = 0x0D

/-- Drop the whitespace at the front. -/
def skipBlanks : Bytes → Bytes
  | [] => []
  | b :: rest => if isBlank b then skipBlanks rest else b :: rest

def isDigit (b : UInt8) : Bool :=
  0x30 ≤ b && b ≤ 0x39

/-- The value of a hexadecimal digit. -/
def hexValue? (b : UInt8) : Option Nat :=
  if 0x30 ≤ b ∧ b ≤ 0x39 then some (b.toNat - 0x30)
  else if 0x61 ≤ b ∧ b ≤ 0x66 then some (b.toNat - 0x57)
  else if 0x41 ≤ b ∧ b ≤ 0x46 then some (b.toNat - 0x37)
  else none

/-- The bytes that form an escape together with a backslash. -/
def isEscapeLetter (b : UInt8) : Bool :=
  b = 0x22 || b = 0x5C || b = 0x2F || b = 0x62 || b = 0x66 || b = 0x6E || b =
    0x72 || b = 0x74

namespace Skip

/-- The kind of an open bracket. -/
inductive Bracket where
  | list
  | object
  deriving DecidableEq, Repr

namespace Bracket

def closing : Bracket → UInt8
  | list => 0x5D
  | object => 0x7D

/-- The cause when the text ends inside the bracket. -/
def ending : Bracket → Cause
  | list => .endInList
  | object => .endInObject

/-- The cause when a value inside the bracket is followed by neither a comma nor
the closing byte. -/
def expected : Bracket → Cause
  | list => .expectedCommaOrListEnd
  | object => .expectedCommaOrObjectEnd

end Bracket

/-- The position of the automaton within a value. -/
inductive Mode where
  /-- Before a value. -/
  | value
  /-- After the opening bracket of a list. -/
  | firstItem
  /-- After the opening brace of an object. -/
  | firstKey
  /-- Before a key, after a comma. -/
  | key
  /-- After a key. -/
  | colon
  /-- After a value inside a bracket. -/
  | behind
  /-- Inside a string. -/
  | string (isKey : Bool)
  /-- After a backslash. -/
  | escape (isKey : Bool)
  /-- Inside the four digits of an escape: the number of digits left, and
  whether all digits so far are valid. -/
  | hex (isKey : Bool) (left : Nat) (right : Bool)
  /-- Inside a literal with these bytes left. -/
  | word (left : Bytes)
  /-- After a minus sign. -/
  | minus
  /-- After a leading zero. -/
  | zero
  /-- Inside the integer part of a number. -/
  | whole
  /-- After a decimal point. -/
  | point
  /-- Inside the fraction of a number. -/
  | fraction
  /-- After the letter of an exponent. -/
  | exponent
  /-- After the sign of an exponent. -/
  | sign
  /-- Inside the digits of an exponent. -/
  | power
  deriving DecidableEq, Repr

/-- The state of the automaton: its mode and the open brackets, the innermost
first. -/
structure State where
  mode : Mode
  stack : List Bracket
  deriving DecidableEq, Repr

def State.start : State := ⟨.value, []⟩

/-- The result of one transition. -/
inductive Step where
  /-- The byte is consumed. -/
  | more (s : State)
  /-- The value ends with the byte. -/
  | last
  /-- The value ended before the byte. -/
  | past
  /-- A syntax error at the byte, which counts as read. -/
  | wrong (cause : Cause)
  /-- A syntax error before the byte. -/
  | refused (cause : Cause)
  deriving DecidableEq, Repr

/-- The transition at the last byte of a nested value. -/
def ended : List Bracket → Step
  | [] => .last
  | stack => .more ⟨.behind, stack⟩

/-- The transition at a closing byte. -/
def closed (stack : List Bracket) : Step :=
  ended stack.tail

/-- The transition at the first byte of a value. -/
def opening (stack : List Bracket) (b : UInt8) : Step :=
  if isBlank b then .more ⟨.value, stack⟩
  else if b = 0x22 then .more ⟨.string false, stack⟩
  else if b = 0x5B then .more ⟨.firstItem, .list :: stack⟩
  else if b = 0x7B then .more ⟨.firstKey, .object :: stack⟩
  else if b = 0x6E then .more ⟨.word [0x75, 0x6C, 0x6C], stack⟩
  else if b = 0x74 then .more ⟨.word [0x72, 0x75, 0x65], stack⟩
  else if b = 0x66 then .more ⟨.word [0x61, 0x6C, 0x73, 0x65], stack⟩
  else if b = 0x2D then .more ⟨.minus, stack⟩
  else if b = 0x30 then .more ⟨.zero, stack⟩
  else if isDigit b then .more ⟨.whole, stack⟩
  else .wrong .expectedValue

/-- The transition at the byte after a value inside a bracket. -/
def following (bracket : Bracket) (stack : List Bracket) (b : UInt8) : Step :=
  if isBlank b then .more ⟨.behind, bracket :: stack⟩
  else if b = bracket.closing then closed (bracket :: stack)
  else if b = 0x2C then
    match bracket with
    | .list => .more ⟨.value, bracket :: stack⟩
    | .object => .more ⟨.key, bracket :: stack⟩
  else .wrong bracket.expected

/-- The transition at a byte that does not continue a number. -/
def numberEnd (stack : List Bracket) (b : UInt8) : Step :=
  match stack with
  | [] => .past
  | bracket :: stack => following bracket stack b

/-- The transition in a mode that requires a digit. -/
def needDigit (mode : Mode) (stack : List Bracket) (b : UInt8) : Step :=
  if isDigit b then .more ⟨mode, stack⟩ else .wrong .invalidNumber

def step (s : State) (b : UInt8) : Step :=
  match s.mode with
  | .value => opening s.stack b
  | .firstItem =>
    if b = 0x5D then closed s.stack
    else if isBlank b then .more s
    else opening s.stack b
  | .firstKey =>
    if b = 0x7D then closed s.stack
    else if isBlank b then .more s
    else if b = 0x22 then .more ⟨.string true, s.stack⟩
    else .wrong .keyNotString
  | .key =>
    if isBlank b then .more s
    else if b = 0x22 then .more ⟨.string true, s.stack⟩
    else .wrong .keyNotString
  | .colon =>
    if isBlank b then .more s
    else if b = 0x3A then .more ⟨.value, s.stack⟩
    else .wrong .expectedColon
  | .behind => numberEnd s.stack b
  | .string isKey =>
    if b = 0x22 then if isKey then .more ⟨.colon, s.stack⟩ else ended s.stack
    else if b = 0x5C then .more ⟨.escape isKey, s.stack⟩
    else if b < 0x20 then .refused .controlCharacter
    else .more s
  | .escape isKey =>
    if b = 0x75 then .more ⟨.hex isKey 4 true, s.stack⟩
    else if isEscapeLetter b then .more ⟨.string isKey, s.stack⟩
    else .wrong .invalidEscape
  | .hex isKey left right =>
    let right := right && (hexValue? b).isSome
    if 1 < left then .more ⟨.hex isKey (left - 1) right, s.stack⟩
    else if right then .more ⟨.string isKey, s.stack⟩
    else .wrong .invalidEscape
  | .word [] => numberEnd s.stack b
  | .word (c :: rest) =>
    if b ≠ c then .wrong .expectedWord
    else if rest = [] then ended s.stack
    else .more ⟨.word rest, s.stack⟩
  | .minus =>
    if b = 0x30 then .more ⟨.zero, s.stack⟩ else needDigit .whole s.stack b
  | .zero =>
    if isDigit b then .wrong .invalidNumber
    else if b = 0x2E then .more ⟨.point, s.stack⟩
    else if b = 0x65 ∨ b = 0x45 then .more ⟨.exponent, s.stack⟩
    else numberEnd s.stack b
  | .whole =>
    if isDigit b then .more s
    else if b = 0x2E then .more ⟨.point, s.stack⟩
    else if b = 0x65 ∨ b = 0x45 then .more ⟨.exponent, s.stack⟩
    else numberEnd s.stack b
  | .point => needDigit .fraction s.stack b
  | .fraction =>
    if isDigit b then .more s
    else if b = 0x65 ∨ b = 0x45 then .more ⟨.exponent, s.stack⟩
    else numberEnd s.stack b
  | .exponent =>
    if b = 0x2B ∨ b = 0x2D then .more ⟨.sign, s.stack⟩
    else needDigit .power s.stack b
  | .sign => needDigit .power s.stack b
  | .power => if isDigit b then .more s else numberEnd s.stack b

/-- The result at the end of the text: a complete number is accepted, everything
else is an error. -/
def finish (s : State) : Option Cause :=
  let number := s.stack.head?.map Bracket.ending
  match s.mode with
  | .value => some .endInValue
  | .firstItem => some .endInList
  | .firstKey | .key | .colon => some .endInObject
  | .behind | .zero | .whole | .fraction | .power => number
  | .string _ | .escape _ | .hex .. => some .endInString
  | .word _ => some .endInValue
  | .minus | .point | .exponent | .sign => some .invalidNumber

/-- Run the automaton. Returns the number of consumed bytes, added to `count`,
and the bytes after the value. -/
def run (s : State) (count : Nat) : Bytes → Except Fault (Nat × Bytes)
  | [] =>
    match finish s with
    | none => .ok (count, [])
    | some cause => .error (.here cause [])
  | b :: rest =>
    match step s b with
    | .more s => run s (count + 1) rest
    | .last => .ok (count + 1, rest)
    | .past => .ok (count, b :: rest)
    | .wrong cause => .error (.here cause rest)
    | .refused cause => .error (.here cause (b :: rest))

/-- The consumed bytes and the bytes after them are all bytes. -/
theorem run_count {s : State} {count n : Nat} {text behind : Bytes}
    (h : run s count text = .ok (n, behind)) :
    count ≤ n ∧ behind = text.drop (n - count) ∧
    n + behind.length = count + text.length := by
  induction text generalizing s count with
  | nil =>
    simp only [run] at h
    split at h
    · simp only [Except.ok.injEq, Prod.mk.injEq] at h
      simp [← h.1, ← h.2]
    · simp at h
  | cons b rest ih =>
    simp only [run] at h
    split at h
    · obtain ⟨hle, hdrop, hlength⟩ := ih h
      have : n - count = (n - (count + 1)) + 1 := by omega
      refine ⟨by omega, ?_, by simp; omega⟩
      rw [this, List.drop_succ_cons]
      exact hdrop
    · simp only [Except.ok.injEq, Prod.mk.injEq] at h
      simp [← h.1, ← h.2]
      omega
    · simp only [Except.ok.injEq, Prod.mk.injEq] at h
      simp [← h.1, ← h.2]
    · simp at h
    · simp at h

/-- The first byte of a value never completes it. -/
theorem opening_more_or_wrong (stack : List Bracket) (b : UInt8) :
    (∃ s, opening stack b = .more s) ∨ ∃ cause,
      opening stack b = .wrong cause := by
  unfold opening
  repeat' split
  all_goals simp

/-- A value has at least one byte. -/
theorem run_start_pos {n : Nat} {b : UInt8} {rest behind : Bytes}
    (h : run .start 0 (b :: rest) = .ok (n, behind)) : 0 < n := by
  simp only [run, step, State.start] at h
  rcases opening_more_or_wrong [] b with ⟨s, hs⟩ | ⟨cause, hs⟩ <;> rw [hs] at h
  · exact (run_count h).1
  · simp at h

end Skip

def skipValue : Reader Unit := fun text =>
  (Skip.run .start 0 text).map fun walked => ((), walked.2)

example : (skipValue (Utf8.ofString "[1,\x7b\"a\":[]\x7d] x")).toOption =
    some ((), [0x20, 0x78]) := by decide +kernel

end ChatRelay.Json
