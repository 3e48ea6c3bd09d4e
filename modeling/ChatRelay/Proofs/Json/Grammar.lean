import ChatRelay.Json.Skip
/-!
# The grammar of JSON

The texts of the JSON grammar, with whitespace wherever it is allowed. The
grammar is about single bytes, since all bytes that it names are below `0x80`;
the encoding of a text is a separate condition.
-/

namespace ChatRelay.Json.Grammar

def Blanks (text : Bytes) : Prop := ∀ b ∈ text, isBlank b = true

def Digits (text : Bytes) : Prop := ∀ b ∈ text, isDigit b = true

inductive Word : Bytes → Prop
  | null : Word [0x6E, 0x75, 0x6C, 0x6C]
  | true : Word [0x74, 0x72, 0x75, 0x65]
  | false : Word [0x66, 0x61, 0x6C, 0x73, 0x65]

/-- The whole part of a number, with a leading zero only if it is zero. -/
inductive Whole : Bytes → Prop
  | zero : Whole [0x30]
  | digits {first : UInt8} {rest : Bytes} (hfirst : isDigit first = true)
      (hzero : first ≠ 0x30) (hrest : Digits rest) : Whole (first :: rest)

inductive Fraction : Bytes → Prop
  | none : Fraction []
  | digits {text : Bytes} (h : Digits text) (hne : text ≠ []) :
    Fraction (0x2E :: text)

inductive Exponent : Bytes → Prop
  | none : Exponent []
  | digits {letter : UInt8} {sign text : Bytes}
      (hletter : letter = 0x65 ∨ letter = 0x45)
      (hsign : sign = [] ∨ sign = [0x2B] ∨ sign = [0x2D]) (h : Digits text)
      (hne : text ≠ []) :
      Exponent (letter :: (sign ++ text))

inductive Numeral : Bytes → Prop
  | mk {sign whole fraction exponent : Bytes}
      (hsign : sign = [] ∨ sign = [0x2D])
      (hwhole : Whole whole) (hfraction : Fraction fraction)
      (hexponent : Exponent exponent) :
      Numeral (sign ++ (whole ++ (fraction ++ exponent)))

/-- A byte of an unescaped character, or an escape. -/
inductive Mark : Bytes → Prop
  | plain {b : UInt8} (hquote : b ≠ 0x22) (hslash : b ≠ 0x5C)
    (hprint : 0x20 ≤ b) : Mark [b]
  | escape {b : UInt8} (h : isEscapeLetter b = true) : Mark [0x5C, b]
  | hex {a b c d : UInt8} (ha : (hexValue? a).isSome)
      (hb : (hexValue? b).isSome)
      (hc : (hexValue? c).isSome) (hd : (hexValue? d).isSome) :
    Mark [0x5C, 0x75, a, b, c, d]

/-- The text between two quotes. -/
inductive Marks : Bytes → Prop
  | nil : Marks []
  | cons {mark marks : Bytes} (h : Mark mark) (hmore : Marks marks) :
    Marks (mark ++ marks)

inductive IsString : Bytes → Prop
  | mk {marks : Bytes} (h : Marks marks) : IsString (0x22 :: (marks ++ [0x22]))

mutual

inductive IsValue : Bytes → Prop
  | word {text : Bytes} (h : Word text) : IsValue text
  | number {text : Bytes} (h : Numeral text) : IsValue text
  | string {text : Bytes} (h : IsString text) : IsValue text
  | list {text : Bytes} (h : IsList text) : IsValue text
  | object {text : Bytes} (h : IsObject text) : IsValue text

inductive IsList : Bytes → Prop
  | empty {gap : Bytes} (hgap : Blanks gap) : IsList (0x5B :: (gap ++ [0x5D]))
  | items {items : Bytes} (h : Items items) : IsList (0x5B :: (items ++ [0x5D]))

inductive IsObject : Bytes → Prop
  | empty {gap : Bytes} (hgap : Blanks gap) : IsObject (0x7B :: (gap ++ [0x7D]))
  | entries {entries : Bytes} (h : Entries entries) :
    IsObject (0x7B :: (entries ++ [0x7D]))

inductive Item : Bytes → Prop
  | mk {before text after : Bytes} (hbefore : Blanks before) (h : IsValue text)
      (hafter : Blanks after) : Item (before ++ (text ++ after))

inductive Items : Bytes → Prop
  | last {item : Bytes} (h : Item item) : Items item
  | more {item items : Bytes} (h : Item item) (hmore : Items items) :
      Items (item ++ 0x2C :: items)

/-- A key with blanks around it, a colon and an item. -/
inductive Entry : Bytes → Prop
  | mk {before key after item : Bytes} (hbefore : Blanks before)
      (hkey : IsString key)
      (hafter : Blanks after) (h : Item item) :
    Entry (before ++ (key ++ (after ++ 0x3A :: item)))

inductive Entries : Bytes → Prop
  | last {entry : Bytes} (h : Entry entry) : Entries entry
  | more {entry entries : Bytes} (h : Entry entry) (hmore : Entries entries) :
      Entries (entry ++ 0x2C :: entries)

end

/-- A self-delimiting value: the text of an object, of a list or of a string. -/
structure Closed (text : Bytes) : Prop where
  shape : IsObject text ∨ IsList text ∨ IsString text
  isText : Utf8.isText text = true

end ChatRelay.Json.Grammar
