import ChatRelay.Decimal.Layout
/-!
# Decimal digits

A natural number is written with digits only, and only zero starts with a zero.
-/

namespace ChatRelay.Layout

/-- A text of digits, possibly empty. -/
def Digits (text : List Char) : Prop := ∀ c ∈ text, c.isDigit = true

theorem Digits.append {text more : List Char} (htext : Digits text)
    (hmore : Digits more) :
    Digits (text ++ more) := by
  intro c hc
  rcases List.mem_append.mp hc with h | h
  · exact htext c h
  · exact hmore c h

theorem Digits.tail {c : Char} {text : List Char} (h : Digits (c :: text)) :
    Digits text :=
  fun d hd => h d (List.mem_cons_of_mem c hd)

theorem digits_zeros (n : Nat) : Digits (zeros n) := by
  intro c hc
  rw [List.eq_of_mem_replicate hc]
  decide

theorem digits_digitsOf (n : Nat) : Digits (digitsOf n) := by
  intro c hc
  exact Nat.isDigit_of_mem_toDigits (by decide) (by decide) hc

theorem digitsOf_zero : digitsOf 0 = ['0'] := by
  decide

/-- The last digit of a number follows those of its tenth. -/
theorem digitsOf_step {n : Nat} (hn : 10 ≤ n) :
    digitsOf n = digitsOf (n / 10) ++ [(n % 10).digitChar] := by
  have hlast : n % 10 < 10 := Nat.mod_lt n (by decide)
  have h :=
    Nat.toDigits_append_toDigits (b := 10) (n := n / 10)
      (d := n % 10) (by decide) (by omega) hlast
  rw [Nat.toDigits_of_lt_base hlast, Nat.div_add_mod] at h
  exact h.symm

/-- A number other than zero starts with another digit. -/
theorem digitsOf_cons {n : Nat} (hn : n ≠ 0) :
    ∃ first rest, digitsOf n = first :: rest ∧ first ≠ '0' := by
  induction n using Nat.strongRecOn with
  | ind n ih =>
      by_cases hsmall : n < 10
      · refine ⟨n.digitChar, [], Nat.toDigits_of_lt_base hsmall, ?_⟩
        simpa using hn
      · obtain ⟨first, rest, heq, hfirst⟩ := ih (n / 10) (by omega) (by omega)
        refine ⟨first, rest ++ [(n % 10).digitChar], ?_, hfirst⟩
        rw [digitsOf_step (by omega), heq, List.cons_append]

theorem digitsOf_ne_nil (n : Nat) : digitsOf n ≠ [] := by
  by_cases hn : n = 0
  · rw [hn, digitsOf_zero]
    simp
  · obtain ⟨first, rest, heq, -⟩ := digitsOf_cons hn
    simp [heq]

end ChatRelay.Layout
