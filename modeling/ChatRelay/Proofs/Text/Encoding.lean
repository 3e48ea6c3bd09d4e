import ChatRelay.Text.Utf8
/-!
# UTF-8

Every text is decoded from its bytes, so the bytes of a text are valid. A byte
below `0x80` is always a character by itself, which is why a scanner of bytes
may look for quotes and line feeds without decoding.
-/

namespace ChatRelay.Utf8

theorem toNat_ofNat_of_lt {n : Nat} (hn : n < 0x100) :
    (UInt8.ofNat n).toNat = n := by
  simp [Nat.mod_eq_of_lt hn]

/-- A character has at most 21 bits. -/
theorem toNat_lt (c : Char) : c.toNat < 0x110000 := by
  have hvalid : c.toNat.isValidChar := c.valid
  simp only [Nat.isValidChar] at hvalid
  omega

theorem scalar?_toNat {least : Nat} (c : Char) (hleast : least ≤ c.toNat) :
    scalar? least c.toNat = some c := by
  have hvalid : c.toNat.isValidChar := c.valid
  simp [scalar?, hleast, hvalid, Char.ofNat_toNat]

theorem tail?_ofNat {n : Nat} (hn : n < 0x40) :
    tail? (UInt8.ofNat (0x80 + n)) = some n := by
  rw [tail?, toNat_ofNat_of_lt (by omega), if_pos (by omega)]
  simp

variable {a b d e : UInt8} {x y z : Nat}

theorem guard_bind_of_true {p : Prop} [Decidable p] (hp : p)
    (next : Option Char) :
    (do guard p; next) = next := by
  rw [show (guard p : Option Unit) = some () from if_pos hp]
  rfl

theorem guard_bind_of_false {p : Prop} [Decidable p] (hp : ¬ p)
    (next : Option Char) :
    (do guard p; next) = none := by
  rw [show (guard p : Option Unit) = none from if_neg hp]
  rfl

theorem two?_eq_some (c : Char) (ha : 0xC0 ≤ a.toNat ∧ a.toNat < 0xE0)
    (hb : tail? b = some x) (hc : (a.toNat - 0xC0) * 0x40 + x = c.toNat)
    (hleast : 0x80 ≤ c.toNat) :
    two? a b = some c := by
  rw [two?, guard_bind_of_true ha, hb]
  simp [hc, scalar?_toNat c hleast]

theorem two?_eq_none (ha : 0xE0 ≤ a.toNat) : two? a b = none :=
  guard_bind_of_false (fun h => Nat.not_lt.mpr ha h.2) _

theorem three?_eq_some (c : Char) (ha : 0xE0 ≤ a.toNat ∧ a.toNat < 0xF0)
    (hb : tail? b = some x) (hd : tail? d = some y)
    (hc : (a.toNat - 0xE0) * 0x1000 + x * 0x40 + y = c.toNat)
    (hleast : 0x800 ≤ c.toNat) : three? a b d = some c := by
  rw [three?, guard_bind_of_true ha, hb, hd]
  simp [hc, scalar?_toNat c hleast]

theorem three?_eq_none (ha : 0xF0 ≤ a.toNat) : three? a b d = none :=
  guard_bind_of_false (fun h => Nat.not_lt.mpr ha h.2) _

/-- The parts of a sequence make up its character. Stated for any combination:
the kernel would count up to the factors of a particular one. -/
theorem guard_bind_eq {p : Prop} [Decidable p] {u v w : Option Nat}
    {f : Nat → Nat → Nat → Option Char} (hp : p) (hu : u = some x)
    (hv : v = some y) (hw : w = some z) :
    (do guard p; let x ← u; let y ← v; let z ← w; f x y z) = f x y z := by
  rw [guard_bind_of_true hp, hu, hv, hw]
  rfl

theorem four?_eq_some (c : Char) (ha : 0xF0 ≤ a.toNat ∧ a.toNat < 0xF8)
    (hb : tail? b = some x) (hd : tail? d = some y) (he : tail? e = some z)
    (hc : (a.toNat - 0xF0) * 0x40000 + x * 0x1000 + y * 0x40 + z = c.toNat)
    (hleast : 0x10000 ≤ c.toNat) : four? a b d e = some c := by
  have hscalar := scalar?_toNat c hleast
  rw [← hc] at hscalar
  unfold four?
  exact (guard_bind_eq ha hb hd he).trans hscalar

/-- A character is decoded from its bytes, whatever follows them. -/
theorem decodeFrom_encodeChar (read : List Char) (c : Char) (rest : Bytes) :
    decodeFrom read (encodeChar c ++ rest) = decodeFrom (c :: read) rest := by
  have hbound := toNat_lt c
  simp only [encodeChar]
  split
  · next h =>
      have hbyte := toNat_ofNat_of_lt (n := c.toNat) (by omega)
      rw [List.cons_append, List.nil_append, decodeFrom.eq_def]
      simp only [hbyte, h, ↓reduceIte, Char.ofNat_toNat]
  split
  · next h₁ h₂ =>
      have hlead := toNat_ofNat_of_lt (n := 0xC0 + c.toNat / 0x40) (by omega)
      have htwo := two?_eq_some (a := UInt8.ofNat (0xC0 + c.toNat / 0x40)) c
        (by rw [hlead]; omega) (tail?_ofNat (n := c.toNat % 0x40) (by omega))
        (by rw [hlead]; omega) (by omega)
      have hnot : ¬ 0xC0 + c.toNat / 0x40 < 0x80 := by omega
      rw [List.cons_append, List.cons_append, List.nil_append,
        decodeFrom.eq_def]
      simp only [hlead, hnot, ↓reduceIte, htwo]
  split
  · next h₁ h₂ h₃ =>
      have hlead := toNat_ofNat_of_lt (n := 0xE0 + c.toNat / 0x1000) (by omega)
      have htwo := two?_eq_none (a := UInt8.ofNat (0xE0 + c.toNat / 0x1000))
        (b := UInt8.ofNat (0x80 + c.toNat / 0x40 % 0x40)) (by rw [hlead]; omega)
      have hthree :=
        three?_eq_some (a := UInt8.ofNat (0xE0 + c.toNat / 0x1000)) c
          (by rw [hlead]; omega)
            (tail?_ofNat (n := c.toNat / 0x40 % 0x40) (by omega))
          (tail?_ofNat (n := c.toNat % 0x40) (by omega))
            (by rw [hlead]; omega) (by omega)
      have hnot : ¬ 0xE0 + c.toNat / 0x1000 < 0x80 := by omega
      rw [List.cons_append, List.cons_append, List.cons_append, List.nil_append,
        decodeFrom.eq_def]
      simp only [hlead, hnot, ↓reduceIte, htwo, hthree]
  · next h₁ h₂ h₃ =>
      have hlead := toNat_ofNat_of_lt (n := 0xF0 + c.toNat / 0x40000) (by omega)
      have htwo := two?_eq_none (a := UInt8.ofNat (0xF0 + c.toNat / 0x40000))
        (b := UInt8.ofNat (0x80 + c.toNat / 0x1000 % 0x40))
          (by rw [hlead]; omega)
      have hthree :=
        three?_eq_none (a := UInt8.ofNat (0xF0 + c.toNat / 0x40000))
          (b := UInt8.ofNat (0x80 + c.toNat / 0x1000 % 0x40))
          (d := UInt8.ofNat (0x80 + c.toNat / 0x40 % 0x40))
            (by rw [hlead]; omega)
      have hfour :=
        four?_eq_some (a := UInt8.ofNat (0xF0 + c.toNat / 0x40000)) c
          (by rw [hlead]; omega)
            (tail?_ofNat (n := c.toNat / 0x1000 % 0x40) (by omega))
          (tail?_ofNat (n := c.toNat / 0x40 % 0x40) (by omega))
          (tail?_ofNat (n := c.toNat % 0x40) (by omega))
            (by rw [hlead]; omega) (by omega)
      have hnot : ¬ 0xF0 + c.toNat / 0x40000 < 0x80 := by omega
      rw [List.cons_append, List.cons_append, List.cons_append,
        List.cons_append, List.nil_append, decodeFrom.eq_def]
      simp only [hlead, hnot, ↓reduceIte, htwo, hthree, hfour]

/-- The bytes of a character are one byte below `0x80`, or bytes from `0x80` on
only. -/
theorem encodeChar_bytes (c : Char) :
    (c.toNat < 0x80 ∧ encodeChar c = [UInt8.ofNat c.toNat]) ∨
      0x80 ≤ c.toNat ∧ ∀ b ∈ encodeChar c, 0x80 ≤ b.toNat := by
  have hbound := toNat_lt c
  simp only [encodeChar]
  by_cases h : c.toNat < 0x80
  · exact Or.inl ⟨h, if_pos h⟩
  · refine Or.inr ⟨by omega, ?_⟩
    simp only [h, ↓reduceIte]
    split
    · intro b hb
      simp only [List.mem_cons, List.not_mem_nil, or_false] at hb
      rcases hb with rfl | rfl <;> rw [toNat_ofNat_of_lt (by omega)] <;> omega
    split
    · intro b hb
      simp only [List.mem_cons, List.not_mem_nil, or_false] at hb
      rcases hb with rfl | rfl | rfl <;>
        rw [toNat_ofNat_of_lt (by omega)] <;> omega
    · intro b hb
      simp only [List.mem_cons, List.not_mem_nil, or_false] at hb
      rcases hb with rfl | rfl | rfl | rfl <;>
        rw [toNat_ofNat_of_lt (by omega)] <;> omega

theorem length_encodeChar (c : Char) : (encodeChar c).length = c.utf8Size := by
  have hsize : c.utf8Size =
      if c.toNat ≤ 0x7F then 1
      else if c.toNat ≤ 0x7FF then 2 else if c.toNat ≤ 0xFFFF then 3
      else 4 := by
    simp only [Char.utf8Size, UInt32.le_iff_toNat_le]
    rfl
  rw [hsize]
  simp only [encodeChar]
  split
  · rw [if_pos (by omega)]
    rfl
  split
  · rw [if_neg (by omega), if_pos (by omega)]
    rfl
  split
  · rw [if_neg (by omega), if_neg (by omega), if_pos (by omega)]
    rfl
  · rw [if_neg (by omega), if_neg (by omega), if_neg (by omega)]
    rfl

theorem length_encode (text : List Char) :
    (encode text).length = (String.ofList text).utf8ByteSize := by
  induction text with
  | nil => rfl
  | cons c text ih =>
      rw [encode_cons, List.length_append, length_encodeChar, ih,
        String.ofList_cons, String.utf8ByteSize_append,
          String.utf8ByteSize_singleton]

theorem length_ofString (s : String) :
    (ofString s).length = s.utf8ByteSize := by
  rw [ofString, length_encode, String.ofList_toList]

theorem decodeFrom_encode (read text : List Char) :
    decodeFrom read (encode text) = (read.reverse ++ text, []) := by
  induction text generalizing read with
  | nil => simp [encode_nil, decodeFrom]
  | cons c text ih =>
      rw [encode_cons, decodeFrom_encodeChar, ih]
      simp

/-- A text is decoded from its bytes. -/
theorem decode?_encode (text : List Char) :
    decode? (encode text) = some text := by
  simp [decode?, decodeFrom_encode]

theorem isText_encode (text : List Char) : isText (encode text) = true := by
  simp [isText, decode?_encode]

/-- Bytes below `0x80`, each of which is a character. -/
def Ascii (bytes : Bytes) : Prop := ∀ b ∈ bytes, b.toNat < 0x80

theorem tail?_ascii (hb : b.toNat < 0x80) : tail? b = none :=
  if_neg fun h => Nat.not_lt.mpr h.1 hb

theorem two?_ascii (hb : b.toNat < 0x80) (a : UInt8) : two? a b = none := by
  by_cases ha : 0xC0 ≤ a.toNat ∧ a.toNat < 0xE0
  · rw [two?, guard_bind_of_true ha, tail?_ascii hb]
    rfl
  · exact guard_bind_of_false ha _

theorem three?_ascii (h : b.toNat < 0x80 ∨ d.toNat < 0x80) (a : UInt8) :
    three? a b d = none := by
  by_cases ha : 0xE0 ≤ a.toNat ∧ a.toNat < 0xF0
  · rw [three?, guard_bind_of_true ha]
    rcases h with hb | hd
    · rw [tail?_ascii hb]
      rfl
    · rw [tail?_ascii hd]
      cases tail? b <;> rfl
  · exact guard_bind_of_false ha _

theorem four?_ascii (h : b.toNat < 0x80 ∨ d.toNat < 0x80 ∨ e.toNat < 0x80)
    (a : UInt8) :
    four? a b d e = none := by
  by_cases ha : 0xF0 ≤ a.toNat ∧ a.toNat < 0xF8
  · rw [four?, guard_bind_of_true ha]
    rcases h with hb | hd | he
    · rw [tail?_ascii hb]
      rfl
    · rw [tail?_ascii hd]
      cases tail? b <;> rfl
    · rw [tail?_ascii he]
      cases tail? b <;> cases tail? d <;> rfl
  · exact guard_bind_of_false ha _

theorem decodeFrom_ascii {more : Bytes} (hmore : Ascii more)
    (read : List Char) :
    (decodeFrom read more).2 = [] := by
  induction more generalizing read with
  | nil => rfl
  | cons b more ih =>
      have hb := hmore b List.mem_cons_self
      rw [decodeFrom.eq_def]
      simp only [hb, ↓reduceIte]
      exact ih (fun c hc => hmore c (List.mem_cons_of_mem b hc)) _

theorem decodeFrom_stop {read : List Char} {rest : Bytes}
    (ha : ¬ a.toNat < 0x80)
    (htwo : ∀ b more, rest = b :: more → two? a b = none)
    (hthree : ∀ b d more, rest = b :: d :: more → three? a b d = none)
    (hfour : ∀ b d e more, rest = b :: d :: e :: more → four? a b d e = none) :
    decodeFrom read (a :: rest) = (read.reverse, a :: rest) := by
  rw [decodeFrom.eq_def]
  simp only [ha, ↓reduceIte]
  cases rest with
  | nil => rfl
  | cons b rest =>
      simp only [htwo b rest rfl]
      cases rest with
      | nil => rfl
      | cons d rest =>
          simp only [hthree b d rest rfl]
          cases rest with
          | nil => rfl
          | cons e rest => simp only [hfour b d e rest rfl]

/-- Bytes below `0x80` that follow do not change where decoding stops. -/
theorem decodeFrom_append {more : Bytes} (hmore : Ascii more) (read : List Char)
    (bytes : Bytes) :
    (decodeFrom read (bytes ++ more)).2 = [] ↔
      (decodeFrom read bytes).2 = [] := by
  have hstop {read : List Char} {a : UInt8} {rest : Bytes}
      (h : decodeFrom read (a :: rest) = (read.reverse, a :: rest))
        {stopped : Bytes}
      (hne : stopped ≠ []) : (decodeFrom read (a :: rest)).2 = [] ↔
        stopped = [] := by
    simp [h, hne]
  fun_induction decodeFrom read bytes with
  | case1 read => simp [decodeFrom_ascii hmore]
  | case2 read a rest ha ih =>
      refine Iff.trans (iff_of_eq ?_) ih
      rw [List.cons_append, decodeFrom.eq_def]
      simp only [ha, ↓reduceIte]
  | case3 read a ha =>
      refine hstop (decodeFrom_stop ha ?_ ?_ ?_) (List.cons_ne_nil _ _)
      · rintro b rest rfl
        exact two?_ascii (hmore b (by simp)) a
      · rintro b d rest rfl
        exact three?_ascii (.inl (hmore b (by simp))) a
      · rintro b d e rest rfl
        exact four?_ascii (.inl (hmore b (by simp))) a
  | case4 read a ha b rest c hc ih =>
      refine Iff.trans (iff_of_eq ?_) ih
      rw [List.cons_append, List.cons_append, decodeFrom.eq_def]
      simp only [ha, ↓reduceIte, hc]
  | case5 read a ha b hb =>
      refine hstop (decodeFrom_stop ha ?_ ?_ ?_) (List.cons_ne_nil _ _)
      · rintro b' rest ⟨⟩
        exact hb
      · rintro b' d rest ⟨⟩
        exact three?_ascii (.inr (hmore d (by simp))) a
      · rintro b' d e rest ⟨⟩
        exact four?_ascii (.inr (.inl (hmore d (by simp)))) a
  | case6 read a ha b hb d rest c hc ih =>
      refine Iff.trans (iff_of_eq ?_) ih
      rw [List.cons_append, List.cons_append, List.cons_append,
        decodeFrom.eq_def]
      simp only [ha, ↓reduceIte, hb, hc]
  | case7 read a ha b hb d hd =>
      refine hstop (decodeFrom_stop ha ?_ ?_ ?_) (List.cons_ne_nil _ _)
      · rintro b' rest ⟨⟩
        exact hb
      · rintro b' d' rest ⟨⟩
        exact hd
      · rintro b' d' e rest ⟨⟩
        exact four?_ascii (.inr (.inr (hmore e (by simp)))) a
  | case8 read a ha b hb d hd e rest c hc ih =>
      refine Iff.trans (iff_of_eq ?_) ih
      rw [List.cons_append, List.cons_append, List.cons_append,
        List.cons_append, decodeFrom.eq_def]
      simp only [ha, ↓reduceIte, hb, hd, hc]
  | case9 read a ha b hb d hd e rest he =>
      refine hstop (decodeFrom_stop ha ?_ ?_ ?_) (List.cons_ne_nil _ _)
      · rintro b' rest ⟨⟩
        exact hb
      · rintro b' d' rest ⟨⟩
        exact hd
      · rintro b' d' e' rest ⟨⟩
        exact he

theorem isText_iff (bytes : Bytes) :
    isText bytes = true ↔ (decodeFrom [] bytes).2 = [] := by
  rcases h : decodeFrom [] bytes with ⟨text, rest⟩
  cases rest <;> simp [isText, decode?, h]

/-- Bytes below `0x80` that follow do not change whether bytes are valid. -/
theorem isText_append {more : Bytes} (hmore : Ascii more) (bytes : Bytes) :
    isText (bytes ++ more) = isText bytes := by
  rw [Bool.eq_iff_iff, isText_iff, isText_iff]
  exact decodeFrom_append hmore [] bytes

end ChatRelay.Utf8
