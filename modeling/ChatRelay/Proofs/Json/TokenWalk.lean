import ChatRelay.Proofs.Json.Findings
import ChatRelay.Proofs.Json.Nesting
/-!
# Literals, strings and numbers that are read

A literal, a string or a number that is read is one by the grammar. A string is
followed byte by byte: its reader and the scanner go through the same states,
but for the values of the escapes.
-/

namespace ChatRelay.Json

open Grammar Skip

variable {text rest : Bytes}

theorem skipBlanks_gap (text : Bytes) :
    ∃ gap, Blanks gap ∧ text = gap ++ skipBlanks text := by
  induction text with
  | nil => exact ⟨[], fun _ h => absurd h List.not_mem_nil, rfl⟩
  | cons b text ih =>
      by_cases hb : isBlank b = true
      · obtain ⟨gap, hgap, htext⟩ := ih
        refine ⟨b :: gap, fun c hc => ?_, ?_⟩
        · rcases List.mem_cons.mp hc with rfl | hc
          · exact hb
          · exact hgap c hc
        · rw [skipBlanks, if_pos hb, List.cons_append, ← htext]
      · refine ⟨[], fun _ h => absurd h List.not_mem_nil, ?_⟩
        rw [skipBlanks, if_neg hb, List.nil_append]

/-- The byte behind the blanks is no blank. -/
theorem skipBlanks_found {b : UInt8} (h : skipBlanks text = b :: rest) :
    isBlank b = false ∧ ∃ gap, Blanks gap ∧ text = gap ++ b :: rest := by
  constructor
  · induction text with
    | nil => contradiction
    | cons c text ih =>
        rw [skipBlanks] at h
        split at h
        · exact ih h
        · next hc =>
            obtain ⟨rfl, -⟩ := List.cons.inj h
            exact Bool.not_eq_true _ ▸ hc
  · rw [← h]
    exact skipBlanks_gap text

theorem toValue_ok {b : UInt8} (h : toValue text = .ok (b, rest)) :
    skipBlanks text = b :: rest := by
  unfold toValue at h
  split at h
  · contradiction
  · next hskip =>
      obtain ⟨rfl, rfl⟩ := Prod.mk.inj (Except.ok.inj h)
      exact hskip

theorem readWord_ok {word : Bytes} {a : Unit}
    (h : readWord word text = .ok (a, rest)) :
    text = word ++ rest := by
  induction word generalizing text with
  | nil => exact (Prod.mk.inj (Except.ok.inj h)).2
  | cons c word ih =>
      cases text with
      | nil => contradiction
      | cons b text =>
          rw [readWord] at h
          split at h
          · next hb => rw [hb, ih h, List.cons_append]
          · contradiction

/-- The scanner state for a state of reading a string. -/
def StringMode.walking (isKey : Bool) : StringMode → Mode
  | .plain | .paired _ => .string isKey
  | .escape | .pairedEscape _ => .escape isKey
  | .hex left value | .pairedHex _ left value => .hex isKey left value.isSome

theorem isEscapeLetter_of_escaped {b : UInt8} {c : Char}
    (h : escaped? b = some c) :
    isEscapeLetter b = true := by
  unfold escaped? at h
  simp only [isEscapeLetter, Bool.or_eq_true, decide_eq_true_eq]
  grind

theorem moreHex_isSome (value : Option Nat) (b : UInt8) :
    (moreHex value b).isSome = (value.isSome && (hexValue? b).isSome) := by
  cases value with
  | none => rfl
  | some n => cases hdigit : hexValue? b <;> simp [moreHex, hdigit]

theorem step_hex (isKey : Bool) (stack : List Bracket) (left : Nat)
    (value : Option Nat) (b : UInt8) :
    step ⟨.hex isKey left value.isSome, stack⟩ b =
      if 1 < left then
        .more ⟨.hex isKey (left - 1) (moreHex value b).isSome, stack⟩
      else if (moreHex value b).isSome then .more ⟨.string isKey, stack⟩
      else .wrong .invalidEscape := by
  simp only [step, moreHex_isSome]

/-- A byte that is read inside a string also advances the scanner. -/
theorem stringStep_walks (isKey : Bool) (stack : List Bracket)
    (mode : StringMode) (b : UInt8) :
    (∀ mode', stringStep mode b = .more mode' →
      step ⟨mode.walking isKey, stack⟩ b = .more ⟨mode'.walking isKey, stack⟩) ∧
    (∀ bytes, stringStep mode b = .add bytes →
      step ⟨mode.walking isKey, stack⟩ b = .more ⟨.string isKey, stack⟩) ∧
    (stringStep mode b = .stop → mode = .plain ∧ b = 0x22) := by
  cases mode with
  | plain => grind [stringStep, step, StringMode.walking]
  | escape =>
    grind [stringStep, step, StringMode.walking, isEscapeLetter_of_escaped]
  | paired leading => grind [stringStep, step, StringMode.walking]
  | pairedEscape leading => grind [stringStep, step, StringMode.walking]
  | hex left value =>
      simp only [stringStep, StringMode.walking, step_hex]
      cases moreHex value b with
      | none => grind [hexStep, StringMode.walking]
      | some n => grind [hexStep, StringMode.walking]
  | pairedHex leading left value =>
      simp only [stringStep, StringMode.walking, step_hex]
      cases moreHex value b with
      | none => grind [pairedHexStep, StringMode.walking]
      | some n => grind [pairedHexStep, StringMode.walking]

theorem readStringFrom_leads (isKey : Bool) (stack : List Bracket)
    {mode : StringMode} {read bytes : Bytes}
    (h : readStringFrom mode read text = .ok (bytes, rest)) :
    Leads ⟨mode.walking isKey, stack⟩ text ⟨.string isKey, stack⟩
      (0x22 :: rest) := by
  induction text generalizing mode read with
  | nil => contradiction
  | cons b text ih =>
      obtain ⟨hmore, hadd, hstop⟩ := stringStep_walks isKey stack mode b
      rw [readStringFrom] at h
      split at h
      · next mode' hstep => exact (ih h).step (hmore mode' hstep)
      · next bytes' hstep => exact (ih h).step (hadd bytes' hstep)
      · next hstep =>
          obtain ⟨rfl, rfl⟩ := hstop hstep
          obtain ⟨-, rfl⟩ := Prod.mk.inj (Except.ok.inj h)
          exact .refl _ _
      · contradiction

/-- A string behind its opening quote. -/
theorem readString_leads (isKey : Bool) (stack : List Bracket) {key : String}
    (h : readString text = .ok (key, rest)) :
    Leads ⟨.string isKey, stack⟩ text ⟨.string isKey, stack⟩
      (0x22 :: rest) := by
  obtain ⟨⟨bytes, rest'⟩, hbytes, h⟩ := ok_of_bind h
  simp only at h
  split at h
  · obtain ⟨-, rfl⟩ := Prod.mk.inj (Except.ok.inj h)
    exact readStringFrom_leads isKey stack hbytes
  · contradiction

theorem Grammar.Digits.nil : Digits [] := fun _ h => absurd h List.not_mem_nil

theorem Grammar.Digits.cons {b : UInt8} {digits : Bytes} (hb : isDigit b = true)
    (h : Digits digits) : Digits (b :: digits) :=
  List.forall_mem_cons.mpr ⟨hb, h⟩

theorem Grammar.Digits.append {digits more : Bytes} (h : Digits digits)
    (hmore : Digits more) :
    Digits (digits ++ more) :=
  fun b hb => (List.mem_append.mp hb).elim (h b) (hmore b)

theorem readDigits_split {limit value count value' count' : Nat}
    (h : readDigits limit value count text = (value', count', rest)) :
    ∃ digits, Digits digits ∧ text = digits ++ rest ∧
      count' = count + digits.length := by
  induction text generalizing value count with
  | nil =>
      obtain ⟨-, hcount, rfl⟩ := h
      exact ⟨[], .nil, rfl, rfl⟩
  | cons b text ih =>
      rw [readDigits] at h
      split at h
      · next hb =>
          obtain ⟨digits, hdigits, rfl, rfl⟩ := ih h
          exact ⟨b :: digits, .cons hb.1 hdigits, rfl,
            by rw [List.length_cons]; omega⟩
      · obtain ⟨-, hcount, rfl⟩ := h
        exact ⟨[], .nil, rfl, rfl⟩

theorem digits_takeWhile (text : Bytes) : Digits (text.takeWhile isDigit) := by
  intro b hb
  exact List.all_eq_true.mp List.all_takeWhile b hb

theorem dropDigits_digits (text : Bytes) :
    ∃ digits, Digits digits ∧ text = digits ++ dropDigits text ∧
      (atDigit text = true → digits ≠ []) := by
  refine ⟨text.takeWhile isDigit, digits_takeWhile text,
    List.takeWhile_append_dropWhile.symm, fun h => ?_⟩
  cases text with
  | nil => contradiction
  | cons b text =>
      have hb : isDigit b = true := h
      simp [hb]

theorem realOf_rest {negative : Bool} {digits : Nat} {exponent : Int}
    {n : Number} (h : realOf negative digits exponent text = .ok (n, rest)) :
    text = rest := by
  unfold realOf at h
  split at h
  · exact (Prod.mk.inj (Except.ok.inj h)).2
  · contradiction

theorem readSign_sign (text : Bytes) :
    ∃ sign, (sign = [] ∨ sign = [0x2B] ∨ sign = [0x2D]) ∧
      text = sign ++ (readSign text).2 := by
  cases text with
  | nil => exact ⟨[], .inl rfl, rfl⟩
  | cons b text =>
      by_cases hplus : b = 0x2B
      · exact ⟨[0x2B], .inr (.inl rfl), by simp [readSign, hplus]⟩
      by_cases hminus : b = 0x2D
      · exact ⟨[0x2D], .inr (.inr rfl), by simp [readSign, hminus]⟩
      · exact ⟨[], .inl rfl, by simp [readSign, hplus, hminus]⟩

/-- An exponent behind its letter. -/
theorem readExponent_exponent {negative : Bool} {digits : Nat} {before : Int}
    {n : Number} {letter : UInt8} (hletter : letter = 0x65 ∨ letter = 0x45)
    (h : readExponent negative digits before text = .ok (n, rest)) :
    ∃ exponent, Exponent (letter :: exponent) ∧ text = exponent ++ rest := by
  obtain ⟨sign, hsign, htext⟩ := readSign_sign text
  have hpower {power : Bytes} (hpower : Digits power) (hne : power ≠ [])
      (hrest : (readSign text).2 = power ++ rest) :
      ∃ exponent, Exponent (letter :: exponent) ∧ text = exponent ++ rest :=
    ⟨sign ++ power, .digits hletter hsign hpower hne,
      by rw [List.append_assoc, ← hrest, ← htext]⟩
  unfold readExponent at h
  simp only at h
  split at h
  · contradiction
  · next b behind hbehind =>
      split at h
      · contradiction
      · next hb =>
          have hfirst : isDigit b = true := by simpa using hb
          rcases hread : readDigits exponentLimit (b.toNat - 0x30) 1 behind
            with ⟨power, count, rest'⟩
          obtain ⟨more, hmore, rfl, -⟩ := readDigits_split hread
          rw [hread] at h
          simp only at h
          split at h
          -- the exponent is beyond the limit, and its other digits are skipped
          · split at h
            · contradiction
            · obtain ⟨last, hlast, hsplit, -⟩ := dropDigits_digits rest'
              obtain ⟨-, rfl⟩ := Prod.mk.inj (Except.ok.inj h)
              refine @hpower (b :: more ++ last) ?_ (List.cons_ne_nil _ _) ?_
              · exact (Digits.cons hfirst hmore).append hlast
              · rw [hbehind, List.append_assoc, List.cons_append, ← hsplit]
          · obtain rfl := realOf_rest h
            refine @hpower (b :: more) (Digits.cons hfirst hmore)
              (List.cons_ne_nil _ _) ?_
            rw [hbehind, List.cons_append]

/-- The text behind the whole part of a number. -/
def NumeralTail (text rest : Bytes) : Prop :=
  ∃ fraction exponent, Fraction fraction ∧ Exponent exponent ∧
    text = fraction ++ (exponent ++ rest)

theorem numeralTail_rest (text : Bytes) : NumeralTail text text :=
  ⟨[], [], .none, .none, rfl⟩

theorem numeralTail_exponent {negative : Bool} {digits : Nat} {before : Int}
    {n : Number} (hletter : atExponent text = true)
    (h : readExponent negative digits before text.tail = .ok (n, rest)) :
    ∃ exponent, Exponent exponent ∧ text = exponent ++ rest := by
  cases text with
  | nil => contradiction
  | cons letter text =>
      have hletter' : letter = 0x65 ∨ letter = 0x45 := by
        simpa [atExponent] using hletter
      obtain ⟨exponent, hexponent, htext⟩ := readExponent_exponent hletter' h
      rw [List.tail_cons] at htext
      exact ⟨letter :: exponent, hexponent, by rw [htext]; rfl⟩

theorem numeralTail_fraction {negative : Bool} {digits : Nat} {before : Int}
    {n : Number} (hpoint : atPoint text = true)
    (h : readFraction negative digits before text.tail = .ok (n, rest)) :
    NumeralTail text rest := by
  cases text with
  | nil => contradiction
  | cons point text =>
      obtain rfl : point = 0x2E := by simpa [atPoint] using hpoint
      rcases hread : readDigits wholeLimit digits 0 text
        with ⟨value, count, behind⟩
      obtain ⟨front, hfront, rfl, hcount⟩ := readDigits_split hread
      obtain ⟨last, hlast, hsplit, hsome⟩ := dropDigits_digits behind
      simp only [readFraction, List.tail_cons, hread] at h
      split at h
      · contradiction
      · next hdigit =>
          have hne : front ++ last ≠ [] := by
            intro hnil
            obtain ⟨rfl, rfl⟩ := List.append_eq_nil_iff.mp hnil
            have hnone : atDigit behind = false := by
              cases hfirst : atDigit behind with
              | false => rfl
              | true => exact absurd rfl (hsome hfirst)
            exact hdigit (by simp [hcount, hnone])
          have hfraction : Fraction (0x2E :: (front ++ last)) :=
            .digits (hfront.append hlast) hne
          split at h
          · next hletter =>
              obtain ⟨exponent, hexponent, htail⟩ :=
                numeralTail_exponent hletter h
              refine ⟨_, exponent, hfraction, hexponent, ?_⟩
              rw [← htail, List.cons_append, List.append_assoc, ← hsplit]
          · obtain rfl := realOf_rest h
            refine ⟨_, [], hfraction, .none, ?_⟩
            rw [List.nil_append, List.cons_append, List.append_assoc, ← hsplit]

theorem readNumberTail_tail {negative : Bool} {whole : Nat} {n : Number}
    (h : readNumberTail negative whole text = .ok (n, rest)) :
    NumeralTail text rest := by
  unfold readNumberTail at h
  split at h
  · next hpoint => exact numeralTail_fraction hpoint h
  split at h
  · next hletter =>
      obtain ⟨exponent, hexponent, htext⟩ := numeralTail_exponent hletter h
      exact ⟨[], exponent, .none, hexponent, htext⟩
  · have hrest : text = rest := by
      unfold wholeNumber at h
      split at h
      · exact (Prod.mk.inj (Except.ok.inj h)).2
      split at h
      · exact realOf_rest h
      · exact (Prod.mk.inj (Except.ok.inj h)).2
    exact hrest ▸ numeralTail_rest text

theorem readLongNumber_tail {negative : Bool} {whole : Nat} {n : Number}
    (h : readLongNumber negative whole text = .ok (n, rest)) :
    NumeralTail (dropDigits text) rest := by
  unfold readLongNumber at h
  simp only at h
  split at h
  · next hpoint => exact numeralTail_fraction hpoint h
  split at h
  · next hletter =>
      obtain ⟨exponent, hexponent, htext⟩ := numeralTail_exponent hletter h
      exact ⟨[], exponent, .none, hexponent, htext⟩
  · obtain rfl := realOf_rest h
    exact numeralTail_rest _

/-- A number behind its sign. -/
theorem readNumber_whole {negative : Bool} {n : Number}
    (h : readNumber negative text = .ok (n, rest)) :
    ∃ whole behind, Whole whole ∧ NumeralTail behind rest ∧
      text = whole ++ behind := by
  cases text with
  | nil => contradiction
  | cons b text =>
      rw [readNumber] at h
      split at h
      · next hzero =>
          subst hzero
          split at h
          · contradiction
          · exact ⟨[0x30], text, .zero, readNumberTail_tail h, rfl⟩
      split at h
      · next hzero hdigit =>
          rcases hread : readDigits wholeLimit (b.toNat - 0x30) 1 text
            with ⟨value, count, behind⟩
          obtain ⟨front, hfront, rfl, -⟩ := readDigits_split hread
          rw [hread] at h
          simp only at h
          split at h
          · obtain ⟨last, hlast, hsplit, -⟩ := dropDigits_digits behind
            refine ⟨b :: (front ++ last), dropDigits behind,
              .digits hdigit hzero (hfront.append hlast),
                readLongNumber_tail h, ?_⟩
            rw [List.cons_append, List.append_assoc, ← hsplit]
          · exact ⟨b :: front, behind, .digits hdigit hzero hfront,
              readNumberTail_tail h, rfl⟩
      · contradiction

/-- A number with its sign. -/
theorem readNumber_numeral {negative : Bool} {n : Number} {sign : Bytes}
    (hsign : sign = [] ∨ sign = [0x2D])
    (h : readNumber negative text = .ok (n, rest)) :
    ∃ numeral, Numeral numeral ∧ sign ++ text = numeral ++ rest := by
  obtain ⟨whole, behind, hwhole,
      ⟨fraction, exponent, hfraction, hexponent, rfl⟩, rfl⟩ :=
    readNumber_whole h
  refine ⟨_, .mk hsign hwhole hfraction hexponent, ?_⟩
  simp only [List.append_assoc]

end ChatRelay.Json
