import Mathlib.Data.List.TakeWhile
import Mathlib.Data.Rat.Floor
import ChatRelay.Calendar.Rfc3339
import ChatRelay.Proofs.Calendar.Days
import ChatRelay.Proofs.Decimal.Digits
/-!
# Time stamps

The texts that are read as times are exactly those in the syntax of RFC 3339 as
the parser allows it: digits for the date and the time of day, a fraction of any
length, and an offset. A stamp denotes one instant, and its text is read as the
millisecond that contains this instant.
-/

namespace ChatRelay.Rfc3339

open Layout (Digits)

/-- The number denoted by digits. -/
abbrev value (digits : List Char) : Nat := Nat.ofDigitChars 10 digits 0

/-- Exactly this many digits. -/
structure Numeral (width : Nat) (text : List Char) : Prop where
  length : text.length = width
  digits : Digits text

instance (width : Nat) (text : List Char) : Decidable (Numeral width text) :=
  decidable_of_iff (text.length = width ∧ text.all Char.isDigit = true)
    ⟨fun ⟨hlength, hdigits⟩ => ⟨hlength, List.all_eq_true.mp hdigits⟩,
      fun ⟨hlength, hdigits⟩ => ⟨hlength, List.all_eq_true.mpr hdigits⟩⟩

inductive Zone where
  /-- The letter of universal time. -/
  | universal (letter : Char)
  /-- A sign, hours and minutes. -/
  | offset (sign : Char) (hours minutes : List Char)

namespace Zone

/-- The text of an offset. -/
def text : Zone → List Char
  | universal letter => [letter]
  | offset sign hours minutes => sign :: (hours ++ ':' :: minutes)

def minutes : Zone → Int
  | universal _ => 0
  | offset sign hours minutes =>
    (if sign = '+' then 1 else -1) * (value hours * 60 + value minutes : Nat)

/-- The letter of universal time, or a sign, which may be a typographic minus,
and numerals. -/
def Valid : Zone → Prop
  | universal letter => letter ∈ ['Z', 'z']
  | offset sign hours minutes =>
    sign ∈ ['+', '-', '\u2212'] ∧ Numeral 2 hours ∧ Numeral 2 minutes ∧
      value minutes < 60

instance : DecidablePred Valid
  | universal letter => inferInstanceAs (Decidable (letter ∈ ['Z', 'z']))
  | offset sign hours minutes =>
    inferInstanceAs (Decidable (sign ∈ ['+', '-', '\u2212'] ∧
      Numeral 2 hours ∧ Numeral 2 minutes ∧ value minutes < 60))

end Zone

/-- A time in its syntax. -/
structure Stamp where
  year : List Char
  month : List Char
  day : List Char
  /-- The character between the date and the time of day. -/
  separator : Char
  hour : List Char
  minute : List Char
  second : List Char
  /-- The digits behind the point; without a point there are none. -/
  fraction : List Char
  zone : Zone

namespace Stamp

def date (s : Stamp) : Date := ⟨value s.year, value s.month, value s.day⟩

def fractionText (digits : List Char) : List Char :=
  if digits = [] then [] else '.' :: digits

def text (s : Stamp) : List Char :=
  s.year ++ '-' ::
    (s.month ++ '-' :: (s.day ++ s.separator :: (s.hour ++ ':' :: (s.minute ++
    ':' :: (s.second ++ (fractionText s.fraction ++ s.zone.text))))))

/-- An existing date, a time of day that may be a leap second, and an offset of
less than a day. -/
structure Valid (s : Stamp) : Prop where
  year : Numeral 4 s.year
  month : Numeral 2 s.month
  day : Numeral 2 s.day
  date : s.date.isValid
  separator : s.separator ∈ ['T', 't', ' ']
  hour : Numeral 2 s.hour
  minute : Numeral 2 s.minute
  second : Numeral 2 s.second
  inDay : value s.hour < 24 ∧ value s.minute < 60 ∧ value s.second ≤ 60
  fraction : Digits s.fraction
  zone : s.zone.Valid
  distance : s.zone.minutes.natAbs ≤ maxOffset

instance : DecidablePred Valid := fun s =>
  decidable_of_iff
    ((Numeral 4 s.year ∧ Numeral 2 s.month ∧ Numeral 2 s.day ∧ s.date.isValid) ∧
      s.separator ∈ ['T', 't', ' '] ∧
      (Numeral 2 s.hour ∧ Numeral 2 s.minute ∧ Numeral 2 s.second ∧
        value s.hour < 24 ∧ value s.minute < 60 ∧ value s.second ≤ 60) ∧
      s.fraction.all Char.isDigit = true ∧ s.zone.Valid ∧
      s.zone.minutes.natAbs ≤ maxOffset)
    ⟨fun ⟨⟨hyear, hmonth, hday, hdate⟩, hseparator,
        ⟨hhour, hminute, hsecond, hinDay⟩, hfraction, hzone, hdistance⟩ =>
      ⟨hyear, hmonth, hday, hdate, hseparator, hhour, hminute, hsecond, hinDay,
        List.all_eq_true.mp hfraction, hzone, hdistance⟩,
    fun h => ⟨⟨h.year, h.month, h.day, h.date⟩, h.separator,
      ⟨h.hour, h.minute, h.second, h.inDay⟩, List.all_eq_true.mpr h.fraction,
        h.zone, h.distance⟩⟩

end Stamp

theorem bind_eq_ok {ε α β : Type} {result : Except ε α} {next : α → Except ε β}
    {b : β} :
    result >>= next = .ok b ↔ ∃ a, result = .ok a ∧ next a = .ok b := by
  cases result with
  | error e => simp [bind, Except.bind]
  | ok a => simp [bind, Except.bind]

theorem digits_eq_ok {width start n : Nat} {text rest : List Char} :
    digits width start text = .ok (n, rest) ↔
      ∃ found, Numeral width found ∧ n = Nat.ofDigitChars 10 found start ∧
        text = found ++ rest := by
  induction width generalizing start text with
  | zero =>
      constructor
      · intro h
        obtain ⟨rfl, rfl⟩ := Prod.mk.inj (Except.ok.inj h)
        exact ⟨[], ⟨rfl, by simp [Digits]⟩, rfl, rfl⟩
      · rintro ⟨found, hfound, rfl, rfl⟩
        obtain rfl := List.length_eq_zero_iff.mp hfound.length
        rfl
  | succ width ih =>
      cases text with
      | nil =>
          refine iff_of_false (by simp [digits]) ?_
          rintro ⟨found, hfound, -, htext⟩
          have := hfound.length
          simp [(List.append_eq_nil_iff.mp htext.symm).1] at this
      | cons c text =>
          rw [digits]
          by_cases hc : c.isDigit = true
          · rw [if_pos hc, ih]
            constructor
            · rintro ⟨found, hfound, rfl, rfl⟩
              refine ⟨c :: found, ⟨by simp [hfound.length], ?_⟩, ?_, rfl⟩
              · exact List.forall_mem_cons.mpr ⟨hc, hfound.digits⟩
              · rw [Nat.ofDigitChars_cons, Nat.mul_comm]
            · rintro ⟨found, hfound, rfl, htext⟩
              cases found with
              | nil => exact absurd hfound.length (by simp)
              | cons d found =>
                  obtain ⟨rfl, rfl⟩ := List.cons.inj htext
                  refine ⟨found,
                    ⟨by simpa using hfound.length, hfound.digits.tail⟩, ?_, rfl⟩
                  rw [Nat.ofDigitChars_cons, Nat.mul_comm]
          · rw [if_neg hc]
            refine iff_of_false (by simp) ?_
            rintro ⟨found, hfound, -, htext⟩
            cases found with
            | nil => exact absurd hfound.length (by simp)
            | cons d found =>
                obtain ⟨rfl, -⟩ := List.cons.inj htext
                exact hc (hfound.digits c List.mem_cons_self)

theorem number_eq_ok {width n : Nat} {text rest : List Char} :
    number width text = .ok (n, rest) ↔
      ∃ found, Numeral width found ∧ n = value found ∧ text = found ++ rest :=
      digits_eq_ok

theorem oneOf_eq_ok {allowed text rest : List Char} :
    oneOf allowed text = .ok ((), rest) ↔ ∃ c ∈ allowed, text = c :: rest := by
  cases text with
  | nil => simp [oneOf]
  | cons c text =>
      rw [oneOf]
      split
      · next hc =>
          constructor
          · intro h
            obtain ⟨-, rfl⟩ := Prod.mk.inj (Except.ok.inj h)
            exact ⟨c, hc, rfl⟩
          · rintro ⟨d, -, htext⟩
            obtain ⟨rfl, rfl⟩ := List.cons.inj htext
            rfl
      · next hc =>
          refine iff_of_false (by simp) ?_
          rintro ⟨d, hd, htext⟩
          obtain ⟨rfl, -⟩ := List.cons.inj htext
          exact hc hd

/-- The nanoseconds of the digits of a fraction. -/
def nanoseconds (digits : List Char) : Nat :=
  value (digits.take 9) * 10 ^ (9 - min 9 digits.length)

/-- The rest of a text continues no fraction. -/
def Ends (rest : List Char) : Prop :=
  ∀ c ∈ rest.head?, c.isDigit = false ∧ c ≠ '.'

theorem takeWhile_digits {found rest : List Char} (hfound : Digits found)
    (hrest : Ends rest) :
    (found ++ rest).takeWhile Char.isDigit = found := by
  rw [List.takeWhile_append_of_pos hfound]
  cases rest with
  | nil => simp
  | cons c rest => simp [(hrest c rfl).1]

theorem fraction_eq (text : List Char) (h : text.takeWhile Char.isDigit ≠ []) :
    fraction text =
      .ok (nanoseconds (text.takeWhile Char.isDigit),
        text.dropWhile Char.isDigit) := by
  have hvalue (digits : List Char) :
      digits.foldl (fun n c => n * 10 + (c.toNat - '0'.toNat)) 0 =
        value digits := by
    simp only [value, Nat.ofDigitChars_eq_foldl, Nat.mul_comm]
  have hrest : text.drop (text.takeWhile Char.isDigit).length =
      text.dropWhile Char.isDigit := by
    have hall := @List.takeWhile_append_dropWhile _ Char.isDigit text
    exact (congrArg (List.drop _) hall.symm).trans List.drop_left
  cases text with
  | nil => exact absurd rfl h
  | cons c text =>
      simp only [fraction, List.isEmpty_iff, h, ↓reduceIte, hvalue, hrest,
        nanoseconds]
      rfl

theorem optionalFraction_append {found rest : List Char} (hfound : Digits found)
    (hrest : Ends rest) :
    optionalFraction (Stamp.fractionText found ++ rest) =
      .ok (nanoseconds found, rest) := by
  by_cases hsome : found = []
  · subst hsome
    cases rest with
    | nil => rfl
    | cons c rest =>
        have hpoint : c ≠ '.' := (hrest c rfl).2
        simp [optionalFraction, Stamp.fractionText, nanoseconds, hpoint]
  · have htake := takeWhile_digits hfound hrest
    have hdrop : (found ++ rest).dropWhile Char.isDigit = rest := by
      have hall :=
        @List.takeWhile_append_dropWhile _ Char.isDigit (found ++ rest)
      rw [htake] at hall
      exact List.append_cancel_left hall
    rw [Stamp.fractionText, if_neg hsome, List.cons_append, optionalFraction,
      fraction_eq _ (by rwa [htake]), htake, hdrop]

theorem optionalFraction_ok {text rest : List Char} {n : Nat}
    (h : optionalFraction text = .ok (n, rest)) :
    ∃ found, Digits found ∧ n = nanoseconds found ∧
      text = Stamp.fractionText found ++ rest := by
  unfold optionalFraction at h
  split at h
  · next text =>
      by_cases hsome : text.takeWhile Char.isDigit = []
      · cases text with
        | nil => contradiction
        | cons c text => simp [fraction, hsome] at h
      · rw [fraction_eq _ hsome] at h
        obtain ⟨rfl, rfl⟩ := Prod.mk.inj (Except.ok.inj h)
        refine ⟨text.takeWhile Char.isDigit,
          fun c hc => List.mem_takeWhile_imp hc, rfl, ?_⟩
        rw [Stamp.fractionText, if_neg hsome, List.cons_append,
          List.takeWhile_append_dropWhile]
  · obtain ⟨rfl, rfl⟩ := Prod.mk.inj (Except.ok.inj h)
    exact ⟨[], by simp [Digits], rfl, rfl⟩

theorem length_le_byteSize (text : List Char) :
    text.length ≤ Text.byteSize text := by
  induction text with
  | nil => exact Nat.le_refl 0
  | cons c text ih =>
      have hsize :
          Text.byteSize (c :: text) = c.utf8Size + Text.byteSize text :=
        rfl
      have := c.utf8Size_pos
      rw [hsize, List.length_cons]
      omega

theorem offsetNumber_eq_ok {text rest : List Char} {n : Nat} :
    offsetNumber text = .ok (n, rest) ↔
      ∃ found, Numeral 2 found ∧ n = value found ∧ text = found ++ rest := by
  rw [offsetNumber, ← number_eq_ok]
  split
  · next hshort =>
      refine iff_of_false (by simp) fun h => ?_
      obtain ⟨found, hfound, -, rfl⟩ := number_eq_ok.mp h
      have := length_le_byteSize (found ++ rest)
      have := hfound.length
      rw [List.length_append] at *
      omega
  · rfl

theorem offsetMinutes_eq_ok {text rest : List Char} {n : Nat} :
    offsetMinutes text = .ok (n, rest) ↔
      n < 60 ∧ ∃ found, Numeral 2 found ∧ n = value found ∧
      text = found ++ rest := by
  rw [← offsetNumber_eq_ok, offsetMinutes, bind_eq_ok]
  constructor
  · rintro ⟨⟨m, rest'⟩, hm, h⟩
    simp only at h
    split at h
    · next hless =>
        obtain ⟨rfl, rfl⟩ := Prod.mk.inj (Except.ok.inj h)
        exact ⟨hless, hm⟩
    · contradiction
  · rintro ⟨hless, h⟩
    exact ⟨(n, rest), h, if_pos hless⟩

/-- The minutes with their sign. -/
def signed (sign : Int) : Part Int := fun text => do
  let (hours, rest) ← offsetNumber text
  let ((), rest) ← oneOf [':'] rest
  let (minutes, rest) ← offsetMinutes rest
  return (sign * (hours * 60 + minutes : Nat), rest)

theorem signed_eq_ok {sign minutes : Int} {text rest : List Char} :
    signed sign text = .ok (minutes, rest) ↔
      ∃ hours low, Numeral 2 hours ∧ Numeral 2 low ∧ value low < 60 ∧
        minutes = sign * (value hours * 60 + value low : Nat) ∧
        text = hours ++ ':' :: (low ++ rest) := by
  constructor
  · intro h
    obtain ⟨⟨_, _⟩, hfirst, h⟩ := bind_eq_ok.mp h
    obtain ⟨⟨_, _⟩, hcolon, h⟩ := bind_eq_ok.mp h
    obtain ⟨⟨_, _⟩, hsecond, h⟩ := bind_eq_ok.mp h
    obtain ⟨rfl, rfl⟩ := Prod.mk.inj (Except.ok.inj h)
    obtain ⟨hours, hhours, rfl, rfl⟩ := offsetNumber_eq_ok.mp hfirst
    obtain ⟨c, hc, rfl⟩ := oneOf_eq_ok.mp hcolon
    obtain rfl := List.mem_singleton.mp hc
    obtain ⟨hless, low, hlow, rfl, rfl⟩ := offsetMinutes_eq_ok.mp hsecond
    exact ⟨hours, low, hhours, hlow, hless, rfl, rfl⟩
  · rintro ⟨hours, low, hhours, hlow, hless, rfl, rfl⟩
    refine bind_eq_ok.mpr
      ⟨_, offsetNumber_eq_ok.mpr ⟨hours, hhours, rfl, rfl⟩, ?_⟩
    refine bind_eq_ok.mpr ⟨((), low ++ rest), rfl, ?_⟩
    exact bind_eq_ok.mpr
      ⟨_, offsetMinutes_eq_ok.mpr ⟨hless, low, hlow, rfl, rfl⟩, rfl⟩

theorem offset_letter {c : Char} (hc : c = 'Z' ∨ c = 'z') (text : List Char) :
    offset (c :: text) = .ok (0, text) := if_pos hc

theorem offset_sign {c : Char} (hc : c ∈ ['+', '-', '\u2212'])
    (text : List Char) :
    offset (c :: text) = signed (if c = '+' then 1 else -1) text := by
  simp only [List.mem_cons, List.not_mem_nil, or_false] at hc
  rcases hc with rfl | rfl | rfl <;> rfl

theorem offset_eq_ok {text rest : List Char} {minutes : Int} :
    offset text = .ok (minutes, rest) ↔
      ∃ zone : Zone, zone.Valid ∧ minutes = zone.minutes ∧
        text = zone.text ++ rest := by
  constructor
  · intro h
    cases text with
    | nil => contradiction
    | cons c text =>
        by_cases hletter : c = 'Z' ∨ c = 'z'
        · rw [offset_letter hletter] at h
          obtain ⟨rfl, rfl⟩ := Prod.mk.inj (Except.ok.inj h)
          exact ⟨.universal c, by simpa [Zone.Valid] using hletter, rfl, rfl⟩
        by_cases hsign : c ∈ ['+', '-', '\u2212']
        · rw [offset_sign hsign] at h
          obtain ⟨hours, low, hhours, hlow, hless, rfl, rfl⟩ :=
            signed_eq_ok.mp h
          refine ⟨.offset c hours low, ⟨hsign, hhours, hlow, hless⟩, rfl, ?_⟩
          rw [Zone.text, List.cons_append, List.append_assoc, List.cons_append]
        · have hnone : offset (c :: text) = .error .invalid := by
            simp only [List.mem_cons, List.not_mem_nil, or_false, not_or]
              at hsign
            simp only [offset, hletter, hsign, or_self, ↓reduceIte]
            rfl
          rw [hnone] at h
          contradiction
  · rintro ⟨zone, hzone, rfl, rfl⟩
    cases zone with
    | universal letter =>
      exact offset_letter (by simpa [Zone.Valid] using hzone) rest
    | offset sign hours low =>
        obtain ⟨hsign, hhours, hlow, hless⟩ := hzone
        rw [Zone.text, List.cons_append, List.append_assoc, List.cons_append,
          offset_sign hsign]
        exact signed_eq_ok.mpr ⟨hours, low, hhours, hlow, hless, rfl, rfl⟩

theorem date_eq_ok {d : Date} {text rest : List Char} :
    date text = .ok (d, rest) ↔
      ∃ year month day, Numeral 4 year ∧ Numeral 2 month ∧ Numeral 2 day ∧
        d = ⟨value year, value month, value day⟩ ∧ d.isValid ∧
        text = year ++ '-' :: (month ++ '-' :: (day ++ rest)) := by
  constructor
  · intro h
    obtain ⟨⟨_, _⟩, hfirst, h⟩ := bind_eq_ok.mp h
    obtain ⟨⟨_, _⟩, hhyphen, h⟩ := bind_eq_ok.mp h
    obtain ⟨⟨_, _⟩, hsecond, h⟩ := bind_eq_ok.mp h
    obtain ⟨⟨_, _⟩, hhyphen', h⟩ := bind_eq_ok.mp h
    obtain ⟨⟨_, _⟩, hthird, h⟩ := bind_eq_ok.mp h
    simp only at h
    split at h
    · next hvalid =>
        obtain ⟨rfl, rfl⟩ := Prod.mk.inj (Except.ok.inj h)
        obtain ⟨year, hyear, rfl, rfl⟩ := number_eq_ok.mp hfirst
        obtain ⟨c, hc, rfl⟩ := oneOf_eq_ok.mp hhyphen
        obtain rfl := List.mem_singleton.mp hc
        obtain ⟨month, hmonth, rfl, rfl⟩ := number_eq_ok.mp hsecond
        obtain ⟨c, hc, rfl⟩ := oneOf_eq_ok.mp hhyphen'
        obtain rfl := List.mem_singleton.mp hc
        obtain ⟨day, hday, rfl, rfl⟩ := number_eq_ok.mp hthird
        exact ⟨year, month, day, hyear, hmonth, hday, rfl, hvalid, rfl⟩
    · contradiction
  · rintro ⟨year, month, day, hyear, hmonth, hday, rfl, hvalid, rfl⟩
    refine bind_eq_ok.mpr ⟨_, number_eq_ok.mpr ⟨year, hyear, rfl, rfl⟩, ?_⟩
    refine bind_eq_ok.mpr ⟨((), month ++ '-' :: (day ++ rest)), rfl, ?_⟩
    refine bind_eq_ok.mpr ⟨_, number_eq_ok.mpr ⟨month, hmonth, rfl, rfl⟩, ?_⟩
    refine bind_eq_ok.mpr ⟨((), day ++ rest), rfl, ?_⟩
    refine bind_eq_ok.mpr ⟨_, number_eq_ok.mpr ⟨day, hday, rfl, rfl⟩, ?_⟩
    exact if_pos hvalid

/-- The result of reading a stamp. -/
def Stamp.written (s : Stamp) : Written where
  date := s.date
  hour := value s.hour
  minute := value s.minute
  second := value s.second
  nanosecond := nanoseconds s.fraction
  offset := s.zone.minutes

/-- An offset starts with a letter or a sign. -/
theorem Zone.Valid.ends {zone : Zone} (h : zone.Valid) : Ends zone.text := by
  cases zone with
  | universal letter =>
      rintro c hc
      obtain rfl := Option.some.inj hc
      have hletter : letter = 'Z' ∨ letter = 'z' := by
        simpa [Zone.Valid] using h
      rcases hletter with rfl | rfl <;> decide
  | offset sign hours low =>
      rintro c hc
      obtain rfl := Option.some.inj hc
      have hsign := h.1
      simp only [List.mem_cons, List.not_mem_nil, or_false] at hsign
      rcases hsign with rfl | rfl | rfl <;> decide

theorem Stamp.Valid.fixedSize_le {s : Stamp} (h : s.Valid) :
    fixedSize ≤ Text.byteSize s.text := by
  refine Nat.le_trans ?_ (length_le_byteSize s.text)
  simp only [text, List.length_append, List.length_cons, h.year.length,
    h.month.length, h.day.length, h.hour.length, h.minute.length,
      h.second.length, fixedSize]
  omega

theorem read_text {s : String} {stamp : Stamp} (h : stamp.Valid)
    (hs : s.toList = stamp.text) :
    read s = .ok stamp.written := by
  have hlong : ¬ Text.byteSize stamp.text < fixedSize :=
    Nat.not_lt.mpr h.fixedSize_le
  have hrange : ¬ (24 ≤ value stamp.hour ∨ 60 ≤ value stamp.minute ∨
      60 < value stamp.second) := by
    have := h.inDay
    omega
  rw [read, hs]
  simp only [if_neg hlong]
  refine bind_eq_ok.mpr
    ⟨(stamp.date, _), date_eq_ok.mpr ⟨stamp.year, stamp.month, stamp.day,
      h.year, h.month, h.day, rfl, h.date, rfl⟩, ?_⟩
  refine bind_eq_ok.mpr
    ⟨_, oneOf_eq_ok.mpr ⟨stamp.separator, h.separator, rfl⟩, ?_⟩
  refine bind_eq_ok.mpr ⟨_, number_eq_ok.mpr ⟨stamp.hour, h.hour, rfl, rfl⟩, ?_⟩
  refine bind_eq_ok.mpr ⟨_, oneOf_eq_ok.mpr ⟨':', List.mem_cons_self, rfl⟩, ?_⟩
  refine bind_eq_ok.mpr
    ⟨_, number_eq_ok.mpr ⟨stamp.minute, h.minute, rfl, rfl⟩, ?_⟩
  refine bind_eq_ok.mpr ⟨_, oneOf_eq_ok.mpr ⟨':', List.mem_cons_self, rfl⟩, ?_⟩
  refine bind_eq_ok.mpr
    ⟨_, number_eq_ok.mpr ⟨stamp.second, h.second, rfl, rfl⟩, ?_⟩
  refine bind_eq_ok.mpr ⟨_, optionalFraction_append h.fraction h.zone.ends, ?_⟩
  simp only [if_neg hrange]
  refine bind_eq_ok.mpr
    ⟨(stamp.zone.minutes, []),
      offset_eq_ok.mpr ⟨stamp.zone, h.zone, rfl, (List.append_nil _).symm⟩, ?_⟩
  simp only [List.isEmpty_nil, not_true, ↓reduceIte,
    if_neg (Nat.not_lt.mpr h.distance)]
  rfl

theorem read_ok {s : String} {w : Written} (h : read s = .ok w) :
    ∃ stamp : Stamp, stamp.Valid ∧ s.toList = stamp.text ∧
      w = stamp.written := by
  unfold read at h
  simp only at h
  split at h
  · contradiction
  obtain ⟨⟨_, _⟩, hdate, h⟩ := bind_eq_ok.mp h
  obtain ⟨⟨_, _⟩, hthen, h⟩ := bind_eq_ok.mp h
  obtain ⟨⟨_, _⟩, hhours, h⟩ := bind_eq_ok.mp h
  obtain ⟨⟨_, _⟩, hcolon, h⟩ := bind_eq_ok.mp h
  obtain ⟨⟨_, _⟩, hminutes, h⟩ := bind_eq_ok.mp h
  obtain ⟨⟨_, _⟩, hcolon', h⟩ := bind_eq_ok.mp h
  obtain ⟨⟨_, _⟩, hseconds, h⟩ := bind_eq_ok.mp h
  obtain ⟨⟨_, _⟩, hpoint, h⟩ := bind_eq_ok.mp h
  simp only at h
  split at h
  · contradiction
  next hrange =>
  obtain ⟨⟨_, _⟩, hoffset, h⟩ := bind_eq_ok.mp h
  simp only at h
  split at h
  · contradiction
  next hend =>
  split at h
  · contradiction
  next hdistance =>
  obtain rfl := Except.ok.inj h
  obtain ⟨year, month, day, hyear, hmonth, hday, rfl, hvalid, htext⟩ :=
    date_eq_ok.mp hdate
  obtain ⟨separator, hseparator, rfl⟩ := oneOf_eq_ok.mp hthen
  obtain ⟨hour, hhour, rfl, rfl⟩ := number_eq_ok.mp hhours
  obtain ⟨c, hc, rfl⟩ := oneOf_eq_ok.mp hcolon
  obtain rfl := List.mem_singleton.mp hc
  obtain ⟨minute, hminute, rfl, rfl⟩ := number_eq_ok.mp hminutes
  obtain ⟨c, hc, rfl⟩ := oneOf_eq_ok.mp hcolon'
  obtain rfl := List.mem_singleton.mp hc
  obtain ⟨second, hsecond, rfl, rfl⟩ := number_eq_ok.mp hseconds
  obtain ⟨fraction, hfraction, rfl, rfl⟩ := optionalFraction_ok hpoint
  obtain ⟨zone, hzone, rfl, rfl⟩ := offset_eq_ok.mp hoffset
  refine ⟨⟨year, month, day, separator, hour, minute, second, fraction, zone⟩,
    ?_, ?_, rfl⟩
  · have hinDay : value hour < 24 ∧ value minute < 60 ∧ value second ≤ 60 := by
      omega
    exact ⟨hyear, hmonth, hday, hvalid, hseparator, hhour, hminute, hsecond,
      hinDay, hfraction, hzone, Nat.not_lt.mp hdistance⟩
  · simpa [Stamp.text, List.isEmpty_iff.mp (not_not.mp hend)] using htext

/-- The texts that are read are those of stamps. -/
theorem read_eq_ok {s : String} {w : Written} :
    read s = .ok w ↔ ∃ stamp : Stamp, stamp.Valid ∧ s.toList = stamp.text ∧
      w = stamp.written :=
  ⟨read_ok, fun ⟨_, hvalid, htext, hw⟩ => hw ▸ read_text hvalid htext⟩

def epoch : Date := ⟨1970, 1, 1⟩

/-- The part of a second denoted by the digits behind a point. -/
def fractionOf (digits : List Char) : ℚ := value digits / 10 ^ digits.length

/-- The milliseconds from the epoch to the instant of a stamp, whose date is
`days` days after the first one: a leap second counts as the second that follows
it. -/
def Stamp.instant (s : Stamp) (days : Int) : ℚ :=
  ((days * 86400 +
    (value s.hour * 3600 + value s.minute * 60 + value s.second : Nat) -
    s.zone.minutes * 60 : Int) + fractionOf s.fraction) * 1000

/-- A text denotes an instant, in milliseconds since the epoch. -/
def Denotes (s : String) (instant : ℚ) : Prop :=
  ∃ (stamp : Stamp) (days : Int), stamp.Valid ∧ s.toList = stamp.text ∧
    epoch.DaysUntil stamp.date days ∧ instant = stamp.instant days

theorem value_lt {digits : List Char} (h : Digits digits) :
    value digits < 10 ^ digits.length := by
  induction digits with
  | nil => simp [value]
  | cons c digits ih =>
      have hc : c.toNat - '0'.toNat ≤ 9 := by
        have := (Char.isDigit_iff_toNat.mp (h c List.mem_cons_self)).2
        have : '9'.toNat = 57 := rfl
        have : '0'.toNat = 48 := rfl
        omega
      have hrest := ih h.tail
      rw [value, Nat.ofDigitChars_cons, Nat.ofDigitChars_eq_ofDigitChars_zero,
        List.length_cons, Nat.pow_succ, Nat.mul_zero, Nat.zero_add]
      have hmul := Nat.mul_le_mul_left (10 ^ digits.length) hc
      unfold value at hrest
      omega

/-- The nanoseconds of a fraction are rounded down. -/
theorem nanoseconds_eq {digits : List Char} (h : Digits digits) :
    nanoseconds digits = value digits * 10 ^ 9 / 10 ^ digits.length := by
  rw [nanoseconds]
  rcases Nat.le_total digits.length 9 with hshort | hlong
  · rw [List.take_of_length_le hshort, Nat.min_eq_right hshort]
    have hpow : 10 ^ 9 = 10 ^ (9 - digits.length) * 10 ^ digits.length := by
      rw [← Nat.pow_add, Nat.sub_add_cancel hshort]
    rw [hpow, ← Nat.mul_assoc, Nat.mul_div_cancel _ (Nat.pow_pos (by decide))]
  · -- the digits behind the ninth are less than one at its place
    have hvalue : value digits =
        10 ^ (digits.length - 9) * value (digits.take 9) +
          value (digits.drop 9) := by
      conv_lhs => rw [← List.take_append_drop 9 digits]
      rw [value, Nat.ofDigitChars_append, Nat.ofDigitChars_eq_ofDigitChars_zero,
        List.length_drop]
    have hless : value (digits.drop 9) < 10 ^ (digits.length - 9) := by
      rw [← List.length_drop]
      exact value_lt fun c hc => h c (List.mem_of_mem_drop hc)
    have hpow : 10 ^ digits.length = 10 ^ (digits.length - 9) * 10 ^ 9 := by
      rw [← Nat.pow_add, Nat.sub_add_cancel hlong]
    rw [Nat.min_eq_left hlong, hpow, Nat.mul_div_mul_right _ _
      (Nat.pow_pos (by decide)), hvalue,
        Nat.mul_add_div (Nat.pow_pos (by decide)), Nat.div_eq_of_lt hless]
    simp

theorem floor_fraction {digits : List Char} (h : Digits digits) :
    ⌊fractionOf digits * 1000⌋ = (nanoseconds digits / 1000000 : Nat) := by
  have hpow : 0 < 10 ^ digits.length := Nat.pow_pos (by decide)
  have hquotient : fractionOf digits * 1000 =
      ((value digits * 1000 : Nat) : ℚ) / ((10 ^ digits.length : Nat) : ℚ) := by
    rw [fractionOf]
    push_cast
    ring
  have hnat : nanoseconds digits / 1000000 =
      value digits * 1000 / 10 ^ digits.length := by
    have hbig : value digits * 10 ^ 9 = value digits * 1000 * 1000000 := by ring
    rw [nanoseconds_eq h, Nat.div_div_eq_div_mul, hbig,
      Nat.mul_div_mul_right _ _ (by decide : 0 < 1000000)]
  rw [hquotient, hnat]
  exact Rat.floor_natCast_div_natCast _ _

theorem daysUntil_date {stamp : Stamp} (h : stamp.Valid) {days : Int} :
    epoch.DaysUntil stamp.date days ↔ days = stamp.date.dayNumber := by
  have hepoch : epoch.isValid := by decide
  have hzero : epoch.dayNumber = 0 := by decide
  rw [Date.daysUntil_iff hepoch h.date, hzero, Int.sub_zero]

theorem Stamp.Valid.denotes {stamp : Stamp} (h : stamp.Valid) {s : String}
    (hs : s.toList = stamp.text) :
    Denotes s (stamp.instant stamp.date.dayNumber) :=
  ⟨stamp, _, h, hs, (daysUntil_date h).mpr rfl, rfl⟩

theorem instant_eq (stamp : Stamp) :
    stamp.instant stamp.date.dayNumber =
      ((stamp.written.seconds * 1000 : Int) : ℚ) +
        fractionOf stamp.fraction * 1000 := by
  rw [Stamp.instant, Written.seconds]
  simp only [Stamp.written]
  push_cast
  ring

theorem floor_instant {stamp : Stamp} (h : stamp.Valid) :
    ⌊stamp.instant stamp.date.dayNumber⌋ = stamp.written.milliseconds := by
  rw [instant_eq, Int.floor_intCast_add, floor_fraction h.fraction]
  rfl

/-- A bound for years of four digits and offsets of less than a day. -/
theorem Stamp.Valid.natAbs_milliseconds_lt {stamp : Stamp} (h : stamp.Valid) :
    stamp.written.milliseconds.natAbs < 10 ^ 15 := by
  have hyear : stamp.date.year < 10000 := by
    have hvalue := value_lt h.year.digits
    rwa [h.year.length] at hvalue
  have hlast : stamp.date.dayNumber < 2932897 :=
    @Date.dayNumber_lt_of_year _ ⟨10000, 1, 1⟩ h.date (by decide) hyear
  have hfirst := Date.dayNumber_eq stamp.date
  have hfraction : nanoseconds stamp.fraction < 10 ^ 9 := by
    rw [nanoseconds_eq h.fraction,
      Nat.div_lt_iff_lt_mul (Nat.pow_pos (by decide)), Nat.mul_comm]
    exact Nat.mul_lt_mul_of_pos_left (value_lt h.fraction) (by decide)
  have hdistance := h.distance
  have hday := h.inDay
  rw [Written.milliseconds, Written.seconds]
  simp only [Stamp.written, maxOffset] at *
  omega

/-- A text is read as the whole millisecond that contains its instant, and only
texts that denote an instant are read. -/
theorem milliseconds_eq_ok {s : String} {time : Int} :
    milliseconds s = .ok time ↔ ∃ instant,
      Denotes s instant ∧ time = ⌊instant⌋ := by
  constructor
  · intro h
    cases hread : read s with
    | error e =>
        rw [milliseconds, hread] at h
        contradiction
    | ok w =>
        rw [milliseconds, hread] at h
        obtain rfl := Except.ok.inj h
        obtain ⟨stamp, hvalid, htext, rfl⟩ := read_eq_ok.mp hread
        exact ⟨_, hvalid.denotes htext, (floor_instant hvalid).symm⟩
  · rintro ⟨_, ⟨stamp, days, hvalid, htext, hdays, rfl⟩, rfl⟩
    obtain rfl := (daysUntil_date hvalid).mp hdays
    rw [milliseconds, read_eq_ok.mpr ⟨stamp, hvalid, htext, rfl⟩,
      floor_instant hvalid]
    rfl

theorem Denotes.natAbs_floor_lt {s : String} {instant : ℚ}
    (h : Denotes s instant) :
    ⌊instant⌋.natAbs < 10 ^ 15 := by
  obtain ⟨stamp, days, hvalid, -, hdays, rfl⟩ := h
  obtain rfl := (daysUntil_date hvalid).mp hdays
  rw [floor_instant hvalid]
  exact hvalid.natAbs_milliseconds_lt

theorem fraction_unique {found found' rest rest' : List Char}
    (hfound : Digits found) (hfound' : Digits found') (hrest : Ends rest)
    (hrest' : Ends rest')
    (h : Stamp.fractionText found ++ rest =
      Stamp.fractionText found' ++ rest') :
    found = found' := by
  have hnone {digits behind behind' : List Char} (hbehind : Ends behind)
      (heq : behind = '.' :: digits ++ behind') : False := by
    subst heq
    exact (hbehind '.' rfl).2 rfl
  unfold Stamp.fractionText at h
  split at h <;> split at h
  · next hnil hnil' => rw [hnil, hnil']
  · exact (hnone hrest h).elim
  · exact (hnone hrest' h.symm).elim
  · have hdigits : found ++ rest = found' ++ rest' := (List.cons.inj h).2
    rw [← takeWhile_digits hfound hrest, hdigits,
      takeWhile_digits hfound' hrest']

/-- The date and the time of day have the same length in every stamp. -/
theorem Stamp.Valid.drop_text {stamp : Stamp} (h : stamp.Valid) :
    stamp.text.drop fixedSize =
      fractionText stamp.fraction ++ stamp.zone.text := by
  have hsplit :
      stamp.text = (stamp.year ++ '-' :: (stamp.month ++ '-' :: (stamp.day ++
      stamp.separator ::
        (stamp.hour ++ ':' :: (stamp.minute ++ ':' :: stamp.second))))) ++
      (fractionText stamp.fraction ++ stamp.zone.text) := by
    simp [text]
  rw [hsplit]
  refine List.drop_left' ?_
  simp [h.year.length, h.month.length, h.day.length, h.hour.length,
    h.minute.length, h.second.length, fixedSize]

/-- A text denotes at most one instant. -/
theorem Denotes.unique {s : String} {instant other : ℚ} (h : Denotes s instant)
    (hother : Denotes s other) : other = instant := by
  obtain ⟨stamp, days, hvalid, htext, hdays, rfl⟩ := h
  obtain ⟨stamp', days', hvalid', htext', hdays', rfl⟩ := hother
  obtain rfl := (daysUntil_date hvalid).mp hdays
  obtain rfl := (daysUntil_date hvalid').mp hdays'
  have hwritten : stamp'.written = stamp.written :=
    Except.ok.inj
      ((read_text hvalid' htext').symm.trans (read_text hvalid htext))
  have hfraction : stamp'.fraction = stamp.fraction := by
    refine fraction_unique hvalid'.fraction hvalid.fraction hvalid'.zone.ends
      hvalid.zone.ends ?_
    rw [← hvalid'.drop_text, ← hvalid.drop_text, ← htext, ← htext']
  rw [instant_eq, instant_eq, hwritten, hfraction]

end ChatRelay.Rfc3339
