import ChatRelay.Json.Reader
import ChatRelay.Proofs.Json.WrittenTokens
/-!
# Reading written strings and numbers

A written string is read back, for all characters and whatever follows it. So is
a written 64-bit integer, if the bytes behind it do not continue the number.
-/

namespace ChatRelay.Json

open Skip (encode_ascii digit_byte plain_byte)

theorem readStringFrom_plain {text : Bytes}
    (h : ∀ b ∈ text, b ≠ 0x22 ∧ b ≠ 0x5C ∧ 0x20 ≤ b.toNat) (read rest : Bytes) :
    readStringFrom .plain read (text ++ rest) =
      readStringFrom .plain (text.reverse ++ read) rest := by
  induction text generalizing read with
  | nil => rfl
  | cons b text ih =>
      obtain ⟨hquote, hslash, hprint⟩ := h b List.mem_cons_self
      have hcontrol : ¬ b < 0x20 := by
        rw [UInt8.lt_iff_toNat_lt]
        exact Nat.not_lt.mpr hprint
      have hstep : stringStep .plain b = .add [b] := by
        simp [stringStep, hquote, hslash, hcontrol]
      rw [List.cons_append, readStringFrom, hstep]
      simp only
      rw [ih fun c hc => h c (List.mem_cons_of_mem b hc)]
      simp

/-- A backslash and a letter. -/
theorem readStringFrom_escape {b : UInt8} {c : Char} (hletter : b ≠ 0x75)
    (h : escaped? b = some c) (read rest : Bytes) :
    readStringFrom .plain read (0x5C :: b :: rest) =
      readStringFrom .plain ((Utf8.encodeChar c).reverse ++ read) rest := by
  have hslash : stringStep .plain 0x5C = .more .escape := rfl
  have hstep : stringStep .escape b = .add (Utf8.encodeChar c) := by
    simp [stringStep, hletter, h]
  rw [readStringFrom, hslash]
  simp only
  rw [readStringFrom, hstep]

theorem hexValue?_hexDigit : ∀ n < 16,
    (hexDigit n).toNat < 0x80 ∧
    hexValue? (UInt8.ofNat (hexDigit n).toNat) = some n := by
  decide

/-- The escape of a control character, one of 32. -/
theorem readStringFrom_control {n : Nat} (hn : n < 0x20) (read rest : Bytes) :
    readStringFrom .plain read
        (Utf8.encode ['\\', 'u', '0', '0', hexDigit (n / 16),
          hexDigit (n % 16)] ++ rest) =
      readStringFrom .plain ((Utf8.encodeChar (Char.ofNat n)).reverse ++ read)
        rest := by
  obtain ⟨hhigh, hhigh'⟩ := hexValue?_hexDigit (n / 16) (by omega)
  obtain ⟨hlow, hlow'⟩ := hexValue?_hexDigit (n % 16) (by omega)
  have hzero : hexValue? 0x30 = some 0 := rfl
  have hnumber : n / 16 * 16 + n % 16 = n := by omega
  have hsurrogate : isTrailing n = false ∧ isLeading n = false := by
    simp only [isTrailing, isLeading, Bool.and_eq_false_iff,
      decide_eq_false_iff_not]
    omega
  rw [encode_ascii (by decide), encode_ascii (by decide),
    encode_ascii (by decide), encode_ascii (by decide), encode_ascii hhigh,
      encode_ascii hlow, Utf8.encode_nil]
  simp only [List.cons_append, List.nil_append]
  have hslash : stringStep .plain (UInt8.ofNat '\\'.toNat) = .more .escape :=
    rfl
  have hu :
      stringStep .escape (UInt8.ofNat 'u'.toNat) = .more (.hex 4 (some 0)) :=
    rfl
  rw [readStringFrom, hslash]
  simp only
  rw [readStringFrom, hu]
  simp [readStringFrom, stringStep, moreHex, hzero, hhigh', hlow', hnumber,
    hexStep, hsurrogate]

/-- An escaped character is read back. -/
theorem readStringFrom_escapeChar (c : Char) (read rest : Bytes) :
    readStringFrom .plain read (Utf8.encode (escapeChar c) ++ rest) =
      readStringFrom .plain ((Utf8.encodeChar c).reverse ++ read) rest := by
  have hescape (letter : Char) (hascii : letter.toNat < 0x80)
      (hu : UInt8.ofNat letter.toNat ≠ 0x75)
      (h : escaped? (UInt8.ofNat letter.toNat) = some c) :
      readStringFrom .plain read (Utf8.encode ['\\', letter] ++ rest) =
        readStringFrom .plain ((Utf8.encodeChar c).reverse ++ read) rest := by
    rw [encode_ascii (by decide), encode_ascii hascii, Utf8.encode_nil]
    exact readStringFrom_escape hu h read rest
  unfold escapeChar
  split
  · next h => exact hescape '"' (by decide) (by decide) (by rw [h]; rfl)
  split
  · next h => exact hescape '\\' (by decide) (by decide) (by rw [h]; rfl)
  split
  · next h => exact hescape 'n' (by decide) (by decide) (by rw [h]; rfl)
  split
  · next h => exact hescape 'r' (by decide) (by decide) (by rw [h]; rfl)
  split
  · next h => exact hescape 't' (by decide) (by decide) (by rw [h]; rfl)
  split
  · next h => exact hescape 'b' (by decide) (by decide) (by rw [h]; rfl)
  split
  · next h => exact hescape 'f' (by decide) (by decide) (by rw [h]; rfl)
  split
  · next hcontrol =>
      have h := readStringFrom_control hcontrol read rest
      rwa [Char.ofNat_toNat] at h
  · next hquote hslash _ _ _ _ _ hprint =>
      have hbytes : Utf8.encode [c] = Utf8.encodeChar c := by simp [Utf8.encode]
      rw [hbytes]
      exact readStringFrom_plain (plain_byte hquote hslash (by omega)) read rest

theorem readStringFrom_escaped (text : List Char) (read rest : Bytes) :
    readStringFrom .plain read (Utf8.encode (text.flatMap escapeChar) ++ rest) =
      readStringFrom .plain ((Utf8.encode text).reverse ++ read) rest := by
  induction text generalizing read with
  | nil => rfl
  | cons c text ih =>
      rw [List.flatMap_cons, Utf8.encode_append, List.append_assoc,
        readStringFrom_escapeChar, ih, Utf8.encode_cons, List.reverse_append,
          List.append_assoc]

/-- The bytes of a written string behind its opening quote. -/
def stringTail (s : String) : Bytes :=
  Utf8.encode (s.toList.flatMap escapeChar) ++ [0x22]

theorem encode_writeString (s : String) :
    Utf8.encode (writeString s) = 0x22 :: stringTail s := by
  rw [writeString, List.cons_append, encode_ascii (by decide),
    Utf8.encode_append]
  rfl

/-- A string is read back, whatever follows it. -/
theorem readString_stringTail (s : String) (rest : Bytes) :
    readString (stringTail s ++ rest) = .ok (s, rest) := by
  have hclose : stringStep .plain 0x22 = .stop := rfl
  have hbytes : readStringFrom .plain [] (stringTail s ++ rest) =
      .ok (Utf8.encode s.toList, rest) := by
    rw [stringTail, List.append_assoc, readStringFrom_escaped,
      List.singleton_append, readStringFrom, hclose]
    simp
  have htext : Utf8.toString? (Utf8.encode s.toList) = some s := by
    simp [Utf8.toString?, Utf8.decode?_encode]
  unfold readString
  rw [hbytes]
  simp only [bind, Except.bind, htext]
  rfl

/-- The bytes behind a number do not continue it. -/
structure Stops (rest : Bytes) : Prop where
  digit : atDigit rest = false
  point : atPoint rest = false
  exponent : atExponent rest = false

theorem stops_nil : Stops [] := ⟨rfl, rfl, rfl⟩

theorem stops_comma (rest : Bytes) : Stops (0x2C :: rest) := ⟨rfl, rfl, rfl⟩

theorem stops_listEnd (rest : Bytes) : Stops (0x5D :: rest) := ⟨rfl, rfl, rfl⟩

theorem stops_objectEnd (rest : Bytes) : Stops (0x7D :: rest) := ⟨rfl, rfl, rfl⟩

/-- The number denoted by digits behind a given value. -/
def valueFrom (value : Nat) (digits : List Char) : Nat :=
  digits.foldl (fun value c => value * 10 + (c.toNat - 0x30)) value

theorem le_valueFrom (value : Nat) (digits : List Char) :
    value ≤ valueFrom value digits := by
  induction digits generalizing value with
  | nil => exact Nat.le_refl value
  | cons c digits ih =>
      have := ih (value * 10 + (c.toNat - 0x30))
      change value ≤ valueFrom (value * 10 + (c.toNat - 0x30)) digits
      omega

theorem valueFrom_digitsOf (n : Nat) : valueFrom 0 (Layout.digitsOf n) = n := by
  have hlast : ∀ k < 10, k.digitChar.toNat - 0x30 = k := by decide
  induction n using Nat.strongRecOn with
  | ind n ih =>
      by_cases hsmall : n < 10
      · rw [Layout.digitsOf, Nat.toDigits_of_lt_base hsmall]
        simpa [valueFrom] using hlast n hsmall
      · have hdigits := ih (n / 10) (by omega)
        rw [valueFrom] at hdigits
        rw [Layout.digitsOf_step (by omega), valueFrom,
          List.foldl_append, hdigits]
        simp only [List.foldl_cons, List.foldl_nil, hlast (n % 10) (by omega)]
        omega

/-- The value of a digit's byte. -/
theorem toNat_digit {c : Char} (hc : c.isDigit = true) :
    (UInt8.ofNat c.toNat).toNat = c.toNat := by
  obtain ⟨hascii, -⟩ := digit_byte hc
  exact Utf8.toNat_ofNat_of_lt (by omega)

theorem readDigits_digits {limit value : Nat} {digits : List Char}
    (hdigits : Layout.Digits digits) (hlimit : valueFrom value digits ≤ limit)
    {rest : Bytes} (hrest : atDigit rest = false) (count : Nat) :
    readDigits limit value count (Utf8.encode digits ++ rest) =
      (valueFrom value digits, count + digits.length, rest) := by
  induction digits generalizing value count with
  | nil =>
      cases rest with
      | nil => rfl
      | cons b rest =>
          have hb : isDigit b = false := hrest
          simp [Utf8.encode_nil, readDigits, hb, valueFrom]
  | cons c digits ih =>
      have hc := hdigits c List.mem_cons_self
      obtain ⟨hascii, hdigit, -⟩ := digit_byte hc
      have hmore : valueFrom (value * 10 + (c.toNat - 0x30)) digits ≤ limit :=
        hlimit
      have hfits := Nat.le_trans (le_valueFrom _ _) hmore
      rw [encode_ascii hascii, List.cons_append, readDigits]
      simp only [toNat_digit hc, hdigit, hfits, and_self, ↓reduceIte]
      rw [ih hdigits.tail hmore, List.length_cons, Nat.add_assoc,
        Nat.add_comm 1]
      rfl

/-- The digits of a number in range are read to their end. -/
theorem readNumber_digitsOf (negative : Bool) {n : Nat} (hn : n ≤ wholeLimit)
    {rest : Bytes} (hrest : Stops rest) :
    readNumber negative (Utf8.encode (Layout.digitsOf n) ++ rest) =
      wholeNumber negative n rest := by
  have htail :
      readNumberTail negative n rest = wholeNumber negative n rest := by
    simp [readNumberTail, hrest.point, hrest.exponent]
  by_cases hzero : n = 0
  · subst hzero
    rw [Layout.digitsOf_zero, encode_ascii (by decide),
      Utf8.encode_nil, ← htail]
    simp [readNumber, hrest.digit]
  · obtain ⟨first, digits, heq, hfirst⟩ := Layout.digitsOf_cons hzero
    have hdigits := Layout.digits_digitsOf n
    have hvalue := valueFrom_digitsOf n
    rw [heq] at hdigits hvalue ⊢
    have hc := hdigits first List.mem_cons_self
    obtain ⟨hascii, hdigit, -, hne⟩ := digit_byte hc
    have hvalue' : valueFrom (first.toNat - 0x30) digits = n := by
      simpa [valueFrom] using hvalue
    have hread : readDigits wholeLimit (first.toNat - 0x30) 1
        (Utf8.encode digits ++ rest) = (n, 1 + digits.length, rest) := by
      rw [readDigits_digits hdigits.tail (by rwa [hvalue'])
        hrest.digit, hvalue']
    rw [encode_ascii hascii, List.cons_append, readNumber]
    simp only [hne hfirst, hdigit, ↓reduceIte, toNat_digit hc, hread,
      hrest.digit, Bool.false_eq_true, htail]

/-- A 64-bit integer, or the negative zero. -/
def Number.isWhole : Number → Bool
  | .int i => inRange i
  | .real x => x = .zero true

/-- The negative zero is read back. -/
theorem readNumber_negativeZero {rest : Bytes} (hrest : Stops rest) :
    readNumber true (Utf8.encode ['0', '.', '0'] ++ rest) =
      .ok (.real (.zero true), rest) := by
  have hbytes : Utf8.encode ['0', '.', '0'] = [0x30, 0x2E, 0x30] := by decide
  have hdigits : readDigits wholeLimit 0 0 (0x30 :: rest) = (0, 1, rest) :=
    readDigits_digits (Layout.digits_zeros 1) (by decide) hrest.digit 0
  have hdrop : dropDigits rest = rest := by
    cases rest with
    | nil => rfl
    | cons b rest =>
        have hb : isDigit b = false := hrest.digit
        simp [dropDigits, hb]
  have hreal : Binary64.ofDecimal? 0 (-1) = some (.zero false) := by
    decide +kernel
  rw [hbytes]
  simp [readNumber, atDigit, isDigit, readNumberTail, atPoint, readFraction,
    hdigits, hdrop, hrest.exponent, realOf, hreal, Binary64.zero, Binary64.neg]

/-- A written number starts with a sign or a digit and is read from there. -/
theorem readNumber_write {n : Number} (h : n.isWhole = true) {rest : Bytes}
    (hrest : Stops rest) :
    ∃ b text, Utf8.encode n.write = b :: text ∧
      (b = 0x2D ∧ readNumber true (text ++ rest) = .ok (n, rest) ∨
        isDigit b = true ∧
        readNumber false (b :: (text ++ rest)) = .ok (n, rest)) := by
  cases n with
  | int i =>
      have hrange : Text.minLong ≤ i ∧ i ≤ Text.maxNatural := by
        simpa [Number.isWhole, Number.inRange] using h
      have hlimits : Text.minLong = -9223372036854775808 ∧
        Text.maxNatural = 18446744073709551615 ∧
        wholeLimit = 18446744073709551615 := ⟨rfl, rfl, rfl⟩
      have hread (negative : Bool) := readNumber_digitsOf negative
        (n := i.natAbs) (by omega) hrest
      by_cases hnegative : i < 0
      · refine ⟨0x2D, Utf8.encode (Layout.digitsOf i.natAbs), ?_,
          .inl ⟨rfl, ?_⟩⟩
        · rw [Number.write, writeInt, if_pos hnegative,
            encode_ascii (by decide)]
          rfl
        · have hwhole :
              ¬ (i.natAbs = 0 ∨ -(i.natAbs : Int) < Text.minLong) := by
            omega
          rw [hread, wholeNumber, if_neg hwhole]
          simp only [Bool.not_true, Bool.false_eq_true, ↓reduceIte,
            Except.ok.injEq, Prod.mk.injEq, Number.int.injEq, and_true]
          omega
      · have hwrite : Number.write (.int i) = Layout.digitsOf i.natAbs := by
          rw [Number.write, writeInt, if_neg hnegative]
        have hnumber : (i.natAbs : Int) = i := by omega
        have hdigits := Layout.digits_digitsOf i.natAbs
        have hread := hread false
        rw [hwrite]
        cases heq : Layout.digitsOf i.natAbs with
        | nil => exact absurd heq (Layout.digitsOf_ne_nil _)
        | cons first digits =>
            rw [heq] at hdigits hread
            obtain ⟨hascii, hdigit, -⟩ :=
              digit_byte (hdigits first List.mem_cons_self)
            rw [encode_ascii hascii] at hread ⊢
            refine ⟨_, _, rfl, .inr ⟨hdigit, hread.trans ?_⟩⟩
            simp [wholeNumber, hnumber]
  | real x =>
      obtain rfl : x = .zero true := by simpa [Number.isWhole] using h
      refine ⟨0x2D, Utf8.encode ['0', '.', '0'], ?_,
        .inl ⟨rfl, readNumber_negativeZero hrest⟩⟩
      have hwrite :
          Number.write (.real (.zero true)) = ['-', '0', '.', '0'] := by
        decide +kernel
      rw [hwrite]
      rfl

end ChatRelay.Json
