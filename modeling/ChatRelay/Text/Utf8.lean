/-!
# UTF-8

`encode` writes a character in one to four bytes. `decode?` succeeds exactly on
the encodings of character lists: shortest forms without surrogates.
-/

namespace ChatRelay

abbrev Bytes := List UInt8

namespace Utf8

def encodeChar (c : Char) : Bytes :=
  let n := c.toNat
  if n < 0x80 then [UInt8.ofNat n]
  else if n < 0x800 then
    [UInt8.ofNat (0xC0 + n / 0x40), UInt8.ofNat (0x80 + n % 0x40)]
  else if n < 0x10000 then
    [UInt8.ofNat (0xE0 + n / 0x1000), UInt8.ofNat (0x80 + n / 0x40 % 0x40),
      UInt8.ofNat (0x80 + n % 0x40)]
  else
    [UInt8.ofNat (0xF0 + n / 0x40000), UInt8.ofNat (0x80 + n / 0x1000 % 0x40),
      UInt8.ofNat (0x80 + n / 0x40 % 0x40), UInt8.ofNat (0x80 + n % 0x40)]

def encode (text : List Char) : Bytes :=
  text.flatMap encodeChar

/-- The six payload bits of a continuation byte. -/
def tail? (b : UInt8) : Option Nat :=
  if 0x80 ≤ b.toNat ∧ b.toNat < 0xC0 then some (b.toNat - 0x80) else none

/-- The character with the given code point, which must not be below `least`. -/
def scalar? (least n : Nat) : Option Char :=
  if least ≤ n ∧ n.isValidChar then some (Char.ofNat n) else none

def two? (a b : UInt8) : Option Char := do
  guard (0xC0 ≤ a.toNat ∧ a.toNat < 0xE0)
  let x ← tail? b
  scalar? 0x80 ((a.toNat - 0xC0) * 0x40 + x)

def three? (a b c : UInt8) : Option Char := do
  guard (0xE0 ≤ a.toNat ∧ a.toNat < 0xF0)
  let x ← tail? b
  let y ← tail? c
  scalar? 0x800 ((a.toNat - 0xE0) * 0x1000 + x * 0x40 + y)

def four? (a b c d : UInt8) : Option Char := do
  guard (0xF0 ≤ a.toNat ∧ a.toNat < 0xF8)
  let x ← tail? b
  let y ← tail? c
  let z ← tail? d
  scalar? 0x10000 ((a.toNat - 0xF0) * 0x40000 + x * 0x1000 + y * 0x40 + z)

/-- Decode the longest valid part, and return the bytes after it. The characters
decoded so far are given in reverse. -/
def decodeFrom (read : List Char) : Bytes → List Char × Bytes
  | [] => (read.reverse, [])
  | a :: r₁ =>
    let stop := (read.reverse, a :: r₁)
    if a.toNat < 0x80 then decodeFrom (Char.ofNat a.toNat :: read) r₁
    else match r₁ with
      | [] => stop
      | b :: r₂ =>
        match two? a b with
        | some c => decodeFrom (c :: read) r₂
        | none => match r₂ with
          | [] => stop
          | c :: r₃ =>
            match three? a b c with
            | some x => decodeFrom (x :: read) r₃
            | none => match r₃ with
              | [] => stop
              | d :: r₄ =>
                match four? a b c d with
                | some x => decodeFrom (x :: read) r₄
                | none => stop

/-- The bytes after the longest valid part. -/
def undecoded (bytes : Bytes) : Bytes :=
  (decodeFrom [] bytes).2

def decode? (bytes : Bytes) : Option (List Char) :=
  match decodeFrom [] bytes with
  | (text, []) => some text
  | _ => none

def isText (bytes : Bytes) : Bool :=
  (decode? bytes).isSome

def ofString (s : String) : Bytes :=
  encode s.toList

def toString? (bytes : Bytes) : Option String :=
  (decode? bytes).map String.ofList

theorem encode_nil : encode [] = [] := rfl

theorem encode_cons (c : Char) (text : List Char) :
    encode (c :: text) = encodeChar c ++ encode text := by
  simp [encode]

theorem encode_append (a b : List Char) :
    encode (a ++ b) = encode a ++ encode b := by
  simp [encode]

/-- One encoding of each length. -/
example : encode ['a', 'é', '€', '😀'] =
    [0x61, 0xC3, 0xA9, 0xE2, 0x82, 0xAC, 0xF0, 0x9F, 0x98, 0x80] := by decide

example : decode? [0x61, 0xC3, 0xA9, 0xE2, 0x82, 0xAC, 0xF0, 0x9F, 0x98, 0x80] =
    some ['a', 'é', '€', '😀'] := by decide

/-- Overlong forms, surrogates and truncated sequences are invalid. -/
example : isText [0xC0, 0x80] = false ∧ isText [0xED, 0xA0, 0x80] = false ∧
    isText [0xE2, 0x82] = false ∧ isText [0xF4, 0x90, 0x80, 0x80] = false ∧
    undecoded [0x61, 0xE2, 0x82, 0x62] = [0xE2, 0x82, 0x62] := by decide

end Utf8
end ChatRelay
