import Mathlib.Algebra.Order.Group.Nat
import ChatRelay.Store.Uuid
/-!
# The text of identifiers

An identifier is written in 36 characters, and parsing this text returns the
identifier.
-/

namespace ChatRelay.Uuid

def characters : List Char := "0123456789abcdef-".toList

theorem length_digits (u : Uuid) : u.digits.length = 32 := by
  rw [digits, List.length_map, List.length_range]

theorem mem_digits {u : Uuid} {c : Char} (hc : c ∈ u.digits) :
    c ∈ characters := by
  have hall : ∀ n < 16, Nat.digitChar n ∈ characters := by decide
  obtain ⟨i, -, rfl⟩ := List.mem_map.mp hc
  exact hall _ (Nat.mod_lt _ (by decide))

theorem toList_text (u : Uuid) :
    u.text.toList =
      u.digits.take 8 ++ '-' :: ((u.digits.drop 8).take 4 ++ '-' ::
      ((u.digits.drop 12).take 4 ++ '-' :: ((u.digits.drop 16).take 4 ++ '-' ::
        (u.digits.drop 20).take 12))) := by
  simp [text, groupLengths, grouped, List.intercalate]

theorem length_text (u : Uuid) : u.text.toList.length = 36 := by
  simp [toList_text, length_digits]

theorem mem_text {u : Uuid} {c : Char} (hc : c ∈ u.text.toList) :
    c ∈ characters := by
  have hhyphen : '-' ∈ characters := by decide
  have hpart (n k : Nat) (h : c ∈ (u.digits.drop n).take k) : c ∈ characters :=
    mem_digits (List.mem_of_mem_drop (List.mem_of_mem_take h))
  rw [toList_text] at hc
  simp only [List.mem_append, List.mem_cons] at hc
  rcases hc with h | rfl | h | rfl | h | rfl | h | rfl | h
  · exact mem_digits (List.mem_of_mem_take h)
  · exact hhyphen
  · exact hpart _ _ h
  · exact hhyphen
  · exact hpart _ _ h
  · exact hhyphen
  · exact hpart _ _ h
  · exact hhyphen
  · exact hpart _ _ h

theorem byteSize_text (u : Uuid) : Text.byteSize u.text.toList = 36 := by
  have hcheck : characters.all (fun c => c.utf8Size == 1) = true := by decide
  have hone : ∀ c ∈ characters, c.utf8Size = 1 :=
    fun c hc => beq_iff_eq.mp (List.all_eq_true.mp hcheck c hc)
  have hall (text : List Char) (h : ∀ c ∈ text, c ∈ characters) :
      Text.byteSize text = text.length := by
    induction text with
    | nil => rfl
    | cons c text ih =>
        have hsize :
            Text.byteSize (c :: text) = c.utf8Size + Text.byteSize text :=
          rfl
        rw [hsize, hone c (h c List.mem_cons_self),
          ih fun d hd => h d (List.mem_cons_of_mem c hd), List.length_cons,
            Nat.add_comm]
  rw [hall _ fun _ => mem_text, length_text]

/-- The last `n` digits of a number. -/
def lastDigits (count n : Nat) : List Char :=
  (List.range count).map fun i => Nat.digitChar (n / 16 ^ (count - 1 - i) % 16)

theorem lastDigits_succ (count n : Nat) :
    lastDigits (count + 1) n =
      lastDigits count (n / 16) ++ [Nat.digitChar (n % 16)] := by
  rw [lastDigits, List.range_succ, List.map_append, List.map_singleton,
    Nat.add_sub_cancel, Nat.sub_self, Nat.pow_zero, Nat.div_one]
  congr 1
  refine List.map_congr_left fun i hi => ?_
  have hplace : count - i = count - 1 - i + 1 := by
    have := List.mem_range.mp hi
    omega
  rw [hplace, Nat.pow_succ, Nat.mul_comm, Nat.div_div_eq_div_mul]

theorem value?_snoc {text : List Char} {n d : Nat} (hd : d < 16)
    (htext : Text.value? 16 text = some n) :
    Text.value? 16 (text ++ [Nat.digitChar d]) = some (n * 16 + d) := by
  have hall : ∀ d < 16, Text.digit? 16 d.digitChar = some d := by decide
  unfold Text.value? at htext ⊢
  rw [List.foldl_append, htext]
  simp [hall d hd]

theorem value?_lastDigits (count n : Nat) :
    Text.value? 16 (lastDigits count n) = some (n % 16 ^ count) := by
  induction count generalizing n with
  | zero => rw [Nat.pow_zero, Nat.mod_one]; rfl
  | succ count ih =>
      rw [lastDigits_succ, value?_snoc (Nat.mod_lt n (by decide)) (ih (n / 16)),
        Nat.pow_succ, Nat.mul_comm (16 ^ count), Nat.mod_mul, Nat.mul_comm,
          Nat.add_comm]

theorem value?_digits (u : Uuid) :
    Text.value? 16 u.digits = some u.bits.toNat := by
  have hdigits : u.digits = lastDigits 32 u.bits.toNat := rfl
  have hlt : u.bits.toNat < 16 ^ 32 := u.bits.isLt
  rw [hdigits, value?_lastDigits, Nat.mod_eq_of_lt hlt]

theorem splitAt_of_not_mem {part : List Char} (h : '-' ∉ part) :
    Text.splitAt '-' part = [part] := by
  induction part with
  | nil => rfl
  | cons c part ih =>
      simp only [List.mem_cons, not_or] at h
      obtain ⟨hc, hpart⟩ := h
      simp only [Text.splitAt, List.foldr_cons, Ne.symm hc, ↓reduceIte] at ih ⊢
      rw [ih hpart]

theorem splitAt_append {part : List Char} (h : '-' ∉ part) (rest : List Char) :
    Text.splitAt '-' (part ++ '-' :: rest) = part :: Text.splitAt '-' rest := by
  induction part with
  | nil => simp [Text.splitAt]
  | cons c part ih =>
      simp only [List.mem_cons, not_or] at h
      obtain ⟨hc, hpart⟩ := h
      simp only [Text.splitAt, List.cons_append, List.foldr_cons, Ne.symm hc,
        ↓reduceIte] at ih ⊢
      rw [ih hpart]

/-- The groups of a written identifier are recognised. -/
theorem ofDigits?_text (u : Uuid) : ofDigits? u.text.toList = some u := by
  have hhyphen : '-' ∉ u.digits := by
    have hnone : ∀ n < 16, Nat.digitChar n ≠ '-' := by decide
    intro h
    obtain ⟨i, -, hi⟩ := List.mem_map.mp h
    exact hnone _ (Nat.mod_lt _ (by decide)) hi
  have hpart (n k : Nat) : '-' ∉ (u.digits.drop n).take k :=
    fun h => hhyphen (List.mem_of_mem_drop (List.mem_of_mem_take h))
  have hsplit :
      Text.splitAt '-' u.text.toList = grouped groupLengths u.digits := by
    have hfirst : '-' ∉ u.digits.take 8 := hpart 0 8
    rw [toList_text, splitAt_append hfirst, splitAt_append (hpart _ _),
      splitAt_append (hpart _ _), splitAt_append (hpart _ _),
        splitAt_of_not_mem (hpart _ _)]
    simp [grouped, groupLengths]
  have hlengths :
      (grouped groupLengths u.digits).map List.length = groupLengths := by
    simp [grouped, groupLengths, length_digits]
  have hdigits : (grouped groupLengths u.digits).flatten = u.digits := by
    simp only [grouped, groupLengths, List.flatten_cons, List.flatten_nil,
      List.append_nil]
    rw [List.take_of_length_le (i := 12) (by simp [length_digits])]
    simp only [List.take_append_drop]
  rw [ofDigits?, hsplit, hlengths, hdigits, value?_digits]
  simp

/-- Parsing inverts writing. -/
theorem parse_text (u : Uuid) : parse u.text = .ok u := by
  have hgroups : groups? u.text.toList = some u.text.toList := by
    rw [groups?, byteSize_text]
    rfl
  have hshort : ¬ longest < 36 := by decide
  simp only [parse, byteSize_text, hshort, ↓reduceIte, hgroups, ofDigits?_text]
  rfl

end ChatRelay.Uuid
