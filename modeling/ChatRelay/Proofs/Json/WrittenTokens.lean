import ChatRelay.Json.Writer
import ChatRelay.Proofs.Decimal.Digits
import ChatRelay.Proofs.Json.Walk
import ChatRelay.Proofs.Text.Encoding
/-!
# Scanning written strings and numbers

The scanner accepts written strings and numbers in any bracket, and they contain
no line feed.
-/

namespace ChatRelay.Json.Skip

/-- A text without a line feed leads from one state to another. -/
structure Passes (s : State) (text : Bytes) (s' : State) : Prop where
  walks : walk s text = some s'
  oneLine : 0x0A ∉ text

namespace Passes

variable {s t u : State} {text more : Bytes} {b : UInt8}

theorem nil (s : State) : Passes s [] s := ⟨rfl, List.not_mem_nil⟩

theorem cons (hstep : step s b = .more t) (hb : b ≠ 0x0A)
    (h : Passes t text u) :
    Passes s (b :: text) u where
  walks := (walk_cons hstep text).trans h.walks
  oneLine := by
    simp only [List.mem_cons, not_or]
    exact ⟨hb.symm, h.oneLine⟩

theorem append (h : Passes s text t) (h' : Passes t more u) :
    Passes s (text ++ more) u where
  walks := by rw [walk_append, h.walks, Option.bind_some, h'.walks]
  oneLine := by
    simp only [List.mem_append, not_or]
    exact ⟨h.oneLine, h'.oneLine⟩

/-- Bytes each of which keeps the state. -/
theorem stay (h : ∀ b ∈ text, step s b = .more s ∧ b ≠ 0x0A) :
    Passes s text s := by
  induction text with
  | nil => exact nil s
  | cons b text ih =>
      obtain ⟨hstep, hb⟩ := h b List.mem_cons_self
      exact cons hstep hb (ih fun b' hb' => h b' (List.mem_cons_of_mem b hb'))

end Passes

/-- A character below `0x80` is one byte. -/
theorem encode_ascii {c : Char} (hc : c.toNat < 0x80) (text : List Char) :
    Utf8.encode (c :: text) = UInt8.ofNat c.toNat :: Utf8.encode text := by
  rw [Utf8.encode_cons]
  rcases Utf8.encodeChar_bytes c with ⟨-, h⟩ | ⟨hnot, -⟩
  · rw [h, List.singleton_append]
  · omega

theorem digit_byte {c : Char} (hc : c.isDigit = true) :
    c.toNat < 0x80 ∧ isDigit (UInt8.ofNat c.toNat) = true ∧
      UInt8.ofNat c.toNat ≠ 0x0A ∧
      (c ≠ '0' → UInt8.ofNat c.toNat ≠ 0x30) := by
  have hrange : 48 ≤ c.toNat ∧ c.toNat ≤ 57 := by
    simpa [Char.isDigit, UInt32.le_iff_toNat_le] using hc
  have hbyte := Utf8.toNat_ofNat_of_lt (n := c.toNat) (by omega)
  refine ⟨by omega, ?_, ?_, ?_⟩
  · simp only [isDigit, Bool.and_eq_true, decide_eq_true_eq,
      UInt8.le_iff_toNat_le, hbyte]
    exact hrange
  · intro h
    have := congrArg UInt8.toNat h
    rw [hbyte] at this
    have h10 : (0x0A : UInt8).toNat = 10 := rfl
    omega
  · intro hne h
    apply hne
    have := congrArg UInt8.toNat h
    rw [hbyte] at this
    rw [← Char.ofNat_toNat c, this]
    rfl

theorem ne_of_isDigit {b c : UInt8} (hb : isDigit b = true)
    (hc : isDigit c = false) : b ≠ c := by
  rintro rfl
  rw [hb] at hc
  contradiction

theorem isBlank_of_isDigit {b : UInt8} (hb : isDigit b = true) :
    isBlank b = false := by
  have hne (c : UInt8) (hc : isDigit c = false) : b ≠ c := ne_of_isDigit hb hc
  simp [isBlank, hne 0x20 (by decide), hne 0x0A (by decide),
    hne 0x09 (by decide), hne 0x0D (by decide)]

theorem passes_digits {mode : Mode} {stack : List Bracket} {text : List Char}
    (hmode : mode = .whole ∨ mode = .fraction ∨ mode = .power)
    (htext : Layout.Digits text) :
    Passes ⟨mode, stack⟩ (Utf8.encode text) ⟨mode, stack⟩ := by
  induction text with
  | nil => exact .nil _
  | cons c text ih =>
      obtain ⟨hascii, hdigit, hfeed, -⟩ :=
        digit_byte (htext c List.mem_cons_self)
      rw [encode_ascii hascii]
      refine .cons ?_ hfeed (ih htext.tail)
      rcases hmode with rfl | rfl | rfl <;> simp [step, hdigit]

theorem passes_plain {isKey : Bool} {stack : List Bracket} {text : Bytes}
    (h : ∀ b ∈ text, b ≠ 0x22 ∧ b ≠ 0x5C ∧ 0x20 ≤ b.toNat) :
    Passes ⟨.string isKey, stack⟩ text ⟨.string isKey, stack⟩ := by
  apply Passes.stay
  intro b hb
  obtain ⟨hquote, hslash, hprint⟩ := h b hb
  have hcontrol : ¬ b < 0x20 := by
    rw [UInt8.lt_iff_toNat_lt]
    exact Nat.not_lt.mpr hprint
  refine ⟨by simp [step, hquote, hslash, hcontrol], ?_⟩
  rintro rfl
  exact absurd hprint (by decide)

/-- A byte that stands for a character keeps its number. -/
theorem plain_byte {c : Char} (hquote : c ≠ '"') (hslash : c ≠ '\\')
    (hprint : 0x20 ≤ c.toNat) :
    ∀ b ∈ Utf8.encodeChar c, b ≠ 0x22 ∧ b ≠ 0x5C ∧ 0x20 ≤ b.toNat := by
  intro b hb
  rcases Utf8.encodeChar_bytes c with ⟨hlow, heq⟩ | ⟨-, hhigh⟩
  · rw [heq, List.mem_singleton] at hb
    have hnumber := Utf8.toNat_ofNat_of_lt (n := c.toNat) (by omega)
    have hne (d : Char) (hd : c ≠ d) : b.toNat ≠ d.toNat := by
      rw [hb, hnumber]
      intro h
      exact hd (by rw [← Char.ofNat_toNat c, h, Char.ofNat_toNat])
    refine ⟨?_, ?_, ?_⟩
    · rintro rfl
      exact hne '"' hquote rfl
    · rintro rfl
      exact hne '\\' hslash rfl
    · rw [hb, hnumber]
      exact hprint
  · have hb := hhigh b hb
    refine ⟨?_, ?_, by omega⟩
    · rintro rfl
      exact absurd hb (by decide)
    · rintro rfl
      exact absurd hb (by decide)

/-- The escape of a control character, one of 32. -/
theorem passes_control {isKey : Bool} {stack : List Bracket} (n : Nat)
    (hn : n < 0x20) :
    Passes ⟨.string isKey, stack⟩
      (Utf8.encode ['\\', 'u', '0', '0', hexDigit (n / 16), hexDigit (n % 16)])
      ⟨.string isKey, stack⟩ := by
  have hhex (k : Nat) (hk : k < 16) : ∃ b, Utf8.encode [hexDigit k] = [b] ∧
      (hexValue? b).isSome = true ∧ b ≠ 0x0A := by
    have hall : ∀ k, k < 16 →
        Utf8.encode [hexDigit k] = [UInt8.ofNat (hexDigit k).toNat] ∧
        (hexValue? (UInt8.ofNat (hexDigit k).toNat)).isSome = true ∧
        UInt8.ofNat (hexDigit k).toNat ≠ 0x0A := by decide
    exact ⟨_, hall k hk⟩
  obtain ⟨high, hhigh, hhighHex, hhighFeed⟩ := hhex (n / 16) (by omega)
  obtain ⟨low, hlow, hlowHex, hlowFeed⟩ := hhex (n % 16) (by omega)
  have hbytes :
      Utf8.encode ['\\', 'u', '0', '0', hexDigit (n / 16), hexDigit (n % 16)] =
      [0x5C, 0x75, 0x30, 0x30, high, low] := by
    have hsplit :=
      Utf8.encode_append ['\\', 'u', '0', '0']
        [hexDigit (n / 16), hexDigit (n % 16)]
    have htail := Utf8.encode_append [hexDigit (n / 16)] [hexDigit (n % 16)]
    rw [hhigh, hlow] at htail
    exact hsplit.trans (congrArg _ htail)
  rw [hbytes]
  refine .cons (t := ⟨.escape isKey, stack⟩) rfl (by decide) ?_
  refine .cons (t := ⟨.hex isKey 4 true, stack⟩) rfl (by decide) ?_
  refine .cons (t := ⟨.hex isKey 3 true, stack⟩) rfl (by decide) ?_
  refine .cons (t := ⟨.hex isKey 2 true, stack⟩) rfl (by decide) ?_
  refine .cons (t := ⟨.hex isKey 1 true, stack⟩) (by simp [step, hhighHex])
    hhighFeed ?_
  exact .cons (by simp [step, hlowHex]) hlowFeed (.nil _)

theorem passes_escapeChar (isKey : Bool) (stack : List Bracket) (c : Char) :
    Passes ⟨.string isKey, stack⟩ (Utf8.encode (escapeChar c))
      ⟨.string isKey, stack⟩ := by
  -- an escape letter behind a backslash
  have hescape (b : UInt8) (hletter : isEscapeLetter b = true)
      (hfeed : b ≠ 0x0A)
      (hu : b ≠ 0x75) :
        Passes ⟨.string isKey, stack⟩ [0x5C, b] ⟨.string isKey, stack⟩ := by
    refine .cons (t := ⟨.escape isKey, stack⟩) rfl (by decide) ?_
    exact .cons (by simp [step, hu, hletter]) hfeed (.nil _)
  unfold escapeChar
  split
  · exact hescape 0x22 (by decide) (by decide) (by decide)
  split
  · exact hescape 0x5C (by decide) (by decide) (by decide)
  split
  · exact hescape 0x6E (by decide) (by decide) (by decide)
  split
  · exact hescape 0x72 (by decide) (by decide) (by decide)
  split
  · exact hescape 0x74 (by decide) (by decide) (by decide)
  split
  · exact hescape 0x62 (by decide) (by decide) (by decide)
  split
  · exact hescape 0x66 (by decide) (by decide) (by decide)
  split
  · next hcontrol => exact passes_control c.toNat hcontrol
  · next hquote hslash _ _ _ _ _ hprint =>
      apply passes_plain
      simpa [Utf8.encode] using plain_byte hquote hslash (by omega)

/-- The inside of a string keeps the scanner inside the string. -/
theorem passes_escaped (isKey : Bool) (stack : List Bracket)
    (text : List Char) :
    Passes ⟨.string isKey, stack⟩ (Utf8.encode (text.flatMap escapeChar))
      ⟨.string isKey, stack⟩ := by
  induction text with
  | nil => exact .nil _
  | cons c text ih =>
      rw [List.flatMap_cons, Utf8.encode_append]
      exact (passes_escapeChar isKey stack c).append ih

/-- A string leads from where it may start to the state behind its closing
quote. -/
theorem passes_writeString {s s' : State} (isKey : Bool) (stack : List Bracket)
    (hopen : step s 0x22 = .more ⟨.string isKey, stack⟩)
    (hclose : step ⟨.string isKey, stack⟩ 0x22 = .more s') (text : String) :
    Passes s (Utf8.encode (writeString text)) s' := by
  rw [writeString, List.cons_append, encode_ascii (by decide),
    Utf8.encode_append]
  refine .cons hopen (by decide) ?_
  refine (passes_escaped isKey stack text.toList).append ?_
  exact .cons hclose (by decide) (.nil _)

/-- The state behind the first digit of a number: a zero stands alone, any other
digit may be followed by more. -/
structure StartsNumber (s : State) (stack : List Bracket) : Prop where
  zero : step s 0x30 = .more ⟨.zero, stack⟩
  digit : ∀ b, isDigit b = true → b ≠ 0x30 → step s b = .more ⟨.whole, stack⟩

/-- Behind the whole part of a number. -/
def IsWhole (mode : Mode) : Prop := mode = .zero ∨ mode = .whole

theorem passes_whole {s : State} {stack : List Bracket}
    (hs : StartsNumber s stack) {first : Char} {rest : List Char}
    (hdigits : Layout.Digits (first :: rest)) (hfirst : first ≠ '0') :
    Passes s (Utf8.encode (first :: rest)) ⟨.whole, stack⟩ := by
  obtain ⟨hascii, hdigit, hfeed, hzero⟩ :=
    digit_byte (hdigits first List.mem_cons_self)
  rw [encode_ascii hascii]
  exact .cons (hs.digit _ hdigit (hzero hfirst)) hfeed
    (passes_digits (Or.inl rfl) hdigits.tail)

theorem passes_zero {s : State} {stack : List Bracket}
    (hs : StartsNumber s stack) :
    Passes s (Utf8.encode ['0']) ⟨.zero, stack⟩ :=
  .cons hs.zero (by decide) (.nil _)

theorem passes_digitsOf {s : State} {stack : List Bracket}
    (hs : StartsNumber s stack) (n : Nat) :
    ∃ mode, IsWhole mode ∧
      Passes s (Utf8.encode (Layout.digitsOf n)) ⟨mode, stack⟩ := by
  by_cases hn : n = 0
  · rw [hn, Layout.digitsOf_zero]
    exact ⟨.zero, Or.inl rfl, passes_zero hs⟩
  · obtain ⟨first, rest, heq, hfirst⟩ := Layout.digitsOf_cons hn
    have hdigits := Layout.digits_digitsOf n
    rw [heq] at hdigits ⊢
    exact ⟨.whole, Or.inr rfl, passes_whole hs hdigits hfirst⟩

/-- One or more digits. -/
theorem passes_needed {mode inner : Mode} {stack : List Bracket}
    {text : List Char}
    (hneed : ∀ b, isDigit b = true →
      step ⟨mode, stack⟩ b = .more ⟨inner, stack⟩)
    (hinner : inner = .whole ∨ inner = .fraction ∨ inner = .power)
    (htext : Layout.Digits text) (hne : text ≠ []) :
    Passes ⟨mode, stack⟩ (Utf8.encode text) ⟨inner, stack⟩ := by
  cases text with
  | nil => exact absurd rfl hne
  | cons c text =>
      obtain ⟨hascii, hdigit, hfeed, -⟩ :=
        digit_byte (htext c List.mem_cons_self)
      rw [encode_ascii hascii]
      exact .cons (hneed _ hdigit) hfeed (passes_digits hinner htext.tail)

theorem passes_fraction {mode : Mode} {stack : List Bracket}
    (hmode : IsWhole mode) {text : List Char} (htext : Layout.Digits text)
    (hne : text ≠ []) :
    Passes ⟨mode, stack⟩ (Utf8.encode ('.' :: text)) ⟨.fraction, stack⟩ := by
  rw [encode_ascii (by decide)]
  refine .cons (t := ⟨.point, stack⟩) ?_ (by decide) ?_
  · rcases hmode with rfl | rfl <;> rfl
  · refine passes_needed (fun b hb => ?_) (Or.inr (Or.inl rfl)) htext hne
    simp [step, needDigit, hb]

theorem passes_exponent {mode : Mode} {stack : List Bracket}
    (hmode : IsWhole mode ∨ mode = .fraction) {sign : Char}
    (hsign : sign = '+' ∨ sign = '-') {text : List Char}
    (htext : Layout.Digits text) (hne : text ≠ []) :
    Passes ⟨mode, stack⟩ (Utf8.encode ('e' :: sign :: text))
      ⟨.power, stack⟩ := by
  have hascii : sign.toNat < 0x80 := by rcases hsign with rfl | rfl <;> decide
  rw [encode_ascii (by decide), encode_ascii hascii]
  refine .cons (t := ⟨.exponent, stack⟩) ?_ (by decide) ?_
  · rcases hmode with (rfl | rfl) | rfl <;> rfl
  refine .cons (t := ⟨.sign, stack⟩) ?_ ?_ ?_
  · rcases hsign with rfl | rfl <;> rfl
  · rcases hsign with rfl | rfl <;> decide
  · refine passes_needed (fun b hb => ?_) (Or.inr (Or.inr rfl)) htext hne
    simp [step, needDigit, hb]

/-- Behind an integer, which the next byte may end. -/
def IsNumber (mode : Mode) : Prop :=
  IsWhole mode ∨ mode = .fraction ∨ mode = .power

theorem passes_plainLayout {s : State} {stack : List Bracket}
    (hs : StartsNumber s stack) {first : Char} {rest : List Char}
    (hdigits : Layout.Digits (first :: rest)) (hfirst : first ≠ '0')
    (exponent : Int) :
    Passes s (Utf8.encode (Layout.plain (first :: rest) exponent))
      ⟨.fraction, stack⟩ := by
  unfold Layout.plain
  split
  · have hall :
        Layout.Digits (first :: (rest ++ Layout.zeros exponent.toNat)) :=
      hdigits.append (Layout.digits_zeros _)
    rw [Utf8.encode_append, List.cons_append]
    refine (passes_whole hs hall hfirst).append ?_
    exact passes_fraction (Or.inr rfl) (Layout.digits_zeros 1) (by simp)
  · next hneg =>
      simp only
      split
      · next hshort =>
          -- at least one digit stands on either side of the point
          obtain ⟨k, hk⟩ : ∃ k,
              (first :: rest).length - (-exponent).toNat = k + 1 :=
            ⟨(first :: rest).length - (-exponent).toNat - 1, by omega⟩
          have hbefore : Layout.Digits (first :: rest.take k) := by
            intro c hc
            exact hdigits c (List.mem_of_mem_take (i := k + 1) hc)
          have hbehind : Layout.Digits (rest.drop k) := by
            intro c hc
            exact hdigits c
              (List.mem_cons_of_mem first (List.mem_of_mem_drop hc))
          have hne : rest.drop k ≠ [] := by
            simp only [List.length_cons] at hk hshort
            simp only [ne_eq, List.drop_eq_nil_iff]
            omega
          rw [hk, List.take_succ_cons, List.drop_succ_cons, Utf8.encode_append]
          exact (passes_whole hs hbefore hfirst).append
            (passes_fraction (Or.inr rfl) hbehind hne)
      · have hall :=
          (Layout.digits_zeros
            ((-exponent).toNat - (first :: rest).length)).append hdigits
        rw [show '0' :: '.' ::
            Layout.zeros ((-exponent).toNat - (first :: rest).length) ++
            (first :: rest) = ['0'] ++ '.' :: (Layout.zeros ((-exponent).toNat -
              (first :: rest).length) ++ (first :: rest)) from rfl,
                Utf8.encode_append]
        exact (passes_zero hs).append
          (passes_fraction (Or.inl rfl) hall (by simp))

theorem passes_scientific {s : State} {stack : List Bracket}
    (hs : StartsNumber s stack) {first : Char} {rest : List Char}
    (hdigits : Layout.Digits (first :: rest)) (hfirst : first ≠ '0')
    (power : Int) :
    Passes s (Utf8.encode (numberLayout.scientific (first :: rest) power))
      ⟨.power, stack⟩ := by
  obtain ⟨sign, hsign, heq⟩ : ∃ sign, (sign = '+' ∨ sign = '-') ∧
      (if 0 ≤ power then numberLayout.plusSign else ['-']) = [sign] := by
    by_cases h : 0 ≤ power
    · exact ⟨'+', Or.inl rfl, by simp [h, numberLayout]⟩
    · exact ⟨'-', Or.inr rfl, by simp [h]⟩
  have hone : Layout.Digits [first] := by
    intro c hc
    exact hdigits c (List.mem_singleton.mp hc ▸ List.mem_cons_self)
  have hpower := Layout.digits_digitsOf power.natAbs
  have hne := Layout.digitsOf_ne_nil power.natAbs
  unfold Layout.scientific
  simp only [heq]
  cases rest with
  | nil =>
      rw [show [first] ++ 'e' :: [sign] ++ Layout.digitsOf power.natAbs =
        [first] ++ 'e' :: sign :: Layout.digitsOf power.natAbs from rfl,
          Utf8.encode_append]
      exact (passes_whole hs hone hfirst).append
        (passes_exponent (Or.inl (Or.inr rfl)) hsign hpower hne)
  | cons second rest =>
      rw [show first :: '.' :: second :: rest ++ 'e' :: [sign] ++
        Layout.digitsOf power.natAbs =
        [first] ++ ('.' :: second :: rest ++
          'e' :: sign :: Layout.digitsOf power.natAbs) by simp,
        Utf8.encode_append, Utf8.encode_append]
      refine (passes_whole hs hone hfirst).append ?_
      exact (passes_fraction (Or.inr rfl) hdigits.tail (by simp)).append
        (passes_exponent (Or.inr rfl) hsign hpower hne)

/-- A state in which a value may start: before one, or before the first item of
a list. -/
def Opens (s : State) (stack : List Bracket) : Prop :=
  ∀ b, isBlank b = false → b ≠ 0x5D → step s b = opening stack b

theorem opens_value (stack : List Bracket) : Opens ⟨.value, stack⟩ stack :=
  fun _ _ _ => rfl

theorem opens_firstItem (stack : List Bracket) :
    Opens ⟨.firstItem, stack⟩ stack := by
  intro b hblank hclosing
  simp [step, hblank, hclosing]

theorem Opens.startsNumber {s : State} {stack : List Bracket}
    (hs : Opens s stack) :
    StartsNumber s stack where
  zero := hs 0x30 (by decide) (by decide)
  digit b hdigit hzero := by
    have hne (k : UInt8) (hk : isDigit k = false) : b ≠ k :=
      ne_of_isDigit hdigit hk
    have hblank := isBlank_of_isDigit hdigit
    rw [hs b hblank (hne 0x5D (by decide))]
    simp [opening, hblank, hzero, hdigit, hne 0x22 (by decide),
      hne 0x5B (by decide), hne 0x7B (by decide), hne 0x6E (by decide),
        hne 0x74 (by decide), hne 0x66 (by decide),
      hne 0x2D (by decide)]

theorem startsNumber_minus (stack : List Bracket) :
    StartsNumber ⟨.minus, stack⟩ stack where
  zero := rfl
  digit b hdigit hzero := by simp [step, needDigit, hdigit, hzero]

theorem passes_minus {s s' : State} {stack : List Bracket} (hs : Opens s stack)
    {text : List Char} (h : Passes ⟨.minus, stack⟩ (Utf8.encode text) s') :
    Passes s (Utf8.encode ('-' :: text)) s' := by
  rw [encode_ascii (by decide)]
  exact .cons (hs 0x2D (by decide) (by decide)) (by decide) h

theorem passes_writeInt {s : State} {stack : List Bracket} (hs : Opens s stack)
    (i : Int) :
    ∃ mode, IsNumber mode ∧
      Passes s (Utf8.encode (writeInt i)) ⟨mode, stack⟩ := by
  unfold writeInt
  split
  · obtain ⟨mode, hmode, h⟩ :=
      passes_digitsOf (startsNumber_minus stack) i.natAbs
    exact ⟨mode, Or.inl hmode, passes_minus hs h⟩
  · obtain ⟨mode, hmode, h⟩ := passes_digitsOf hs.startsNumber i.natAbs
    exact ⟨mode, Or.inl hmode, h⟩

/-- The magnitude of a fractional number. -/
theorem passes_magnitude {s : State} {stack : List Bracket}
    (hs : StartsNumber s stack) (x : Decimal) :
    ∃ mode, IsNumber mode ∧
      Passes s (Utf8.encode (numberLayout.render false x)) ⟨mode, stack⟩ := by
  unfold Layout.render
  by_cases hx : x.digits = 0
  · simp only [hx, ↓reduceIte, Bool.false_eq_true]
    refine ⟨.fraction, Or.inr (Or.inl rfl), ?_⟩
    have hzero : Layout.Digits ['0'] := Layout.digits_zeros 1
    exact (passes_zero hs).append (passes_fraction (Or.inl rfl) hzero (by simp))
  · obtain ⟨first, rest, heq, hfirst⟩ := Layout.digitsOf_cons hx
    have hdigits := Layout.digits_digitsOf x.digits
    rw [heq] at hdigits
    simp only [hx, heq, ↓reduceIte, Bool.false_eq_true]
    split
    · exact
        ⟨.fraction, Or.inr (Or.inl rfl), passes_plainLayout hs hdigits hfirst _⟩
    · exact ⟨.power, Or.inr (Or.inr rfl), passes_scientific hs hdigits hfirst _⟩

theorem passes_writeReal {s : State} {stack : List Bracket} (hs : Opens s stack)
    (x : Binary64) :
    ∃ mode, IsNumber mode ∧
      Passes s (Utf8.encode (writeReal x)) ⟨mode, stack⟩ := by
  unfold writeReal
  cases x.negative with
  | false => exact passes_magnitude hs.startsNumber _
  | true =>
      obtain ⟨mode, hmode, h⟩ :=
        passes_magnitude (startsNumber_minus stack) x.shortest
      exact ⟨mode, hmode, passes_minus hs h⟩

end ChatRelay.Json.Skip
