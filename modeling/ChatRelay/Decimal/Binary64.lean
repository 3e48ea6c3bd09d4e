/-!
# Exact binary64 arithmetic

A finite 64-bit floating point number is a sign, a mantissa below `2 ^ 53` and a
power of two. Every operation rounds the exact rational result once, to nearest
with ties to even. A result out of range is `none`.
-/

namespace ChatRelay

/-- A finite number: `mantissa * 2 ^ exponent`, negated if `negative`. -/
structure Binary64 where
  negative : Bool
  mantissa : Nat
  exponent : Int
  deriving DecidableEq, Repr, Inhabited

namespace Binary64

/-- The exponent of subnormal numbers. -/
def leastExponent : Int := -1074

/-- The exponent of the largest numbers. -/
def greatestExponent : Int := 971

def zero (negative : Bool) : Binary64 := ⟨negative, 0, leastExponent⟩

/-- The quotient rounded to the nearest integer, ties to even. -/
def roundHalfEven (num den : Nat) : Nat :=
  let q := num / den
  let r := num % den
  if 2 * r < den then q
  else if den < 2 * r then q + 1
  else q + q % 2

/-- The terms of the fraction `num / den / 2 ^ e`. -/
def scale (num den : Nat) (e : Int) : Nat × Nat :=
  if 0 ≤ e then (num, den * Nat.pow 2 e.toNat)
  else (num * Nat.pow 2 (-e).toNat, den)

/-- The exponent for which the mantissa of `num / den` has 53 bits. -/
def exponentOf (num den : Nat) : Int :=
  let guess : Int := (Nat.log2 num : Int) - (Nat.log2 den : Int) - 52
  let (n, d) := scale num den guess
  max leastExponent (if n < d * Nat.pow 2 52 then guess - 1 else guess)

/-- The number nearest to `num / den`, or none if that is out of range. -/
def ofRatio (negative : Bool) (num den : Nat) : Option Binary64 :=
  if num = 0 then some (zero negative)
  else
    let e := exponentOf num den
    let (n, d) := scale num den e
    let m := roundHalfEven n d
    let (m, e) := if m = Nat.pow 2 53 then (Nat.pow 2 52, e + 1) else (m, e)
    if e ≤ greatestExponent then some ⟨negative, m, e⟩ else none

def ofNat? (n : Nat) : Option Binary64 := ofRatio false n 1

def powerOfTen? (k : Nat) : Option Binary64 := ofNat? (Nat.pow 10 k)

/-- The magnitude as a fraction. -/
def ratio (x : Binary64) : Nat × Nat :=
  if 0 ≤ x.exponent then (x.mantissa * Nat.pow 2 x.exponent.toNat, 1)
  else (x.mantissa, Nat.pow 2 (-x.exponent).toNat)

/-- The rounded product. -/
def mul? (x y : Binary64) : Option Binary64 :=
  let (a, b) := x.ratio
  let (c, d) := y.ratio
  ofRatio (x.negative != y.negative) (a * c) (b * d)

/-- The rounded quotient by a nonzero number. -/
def div? (x y : Binary64) : Option Binary64 :=
  let (a, b) := x.ratio
  let (c, d) := y.ratio
  ofRatio (x.negative != y.negative) (a * d) (b * c)

def neg (x : Binary64) : Binary64 := { x with negative := !x.negative }

/-- The greatest power of ten used in one scaling step. -/
def scalingStep : Nat := 308

/-- Divide by `10 ^ k`, one scaling step at a time, rounding after each. -/
def divPower? (x : Binary64) (k : Nat) : Option Binary64 :=
  if k ≤ scalingStep then (powerOfTen? k).bind x.div?
  else if x.mantissa = 0 then some x
  else (powerOfTen? scalingStep).bind x.div? |>.bind
    fun y => divPower? y (k - scalingStep)
termination_by k
decreasing_by simp only [scalingStep] at *; omega

/-- The number read from decimal digits and a power of ten. The digits are
rounded before the scaled result is rounded again, so the last bit may differ
from that of the nearest number. -/
def ofDecimal? (digits : Nat) (exponent : Int) : Option Binary64 :=
  (ofNat? digits).bind fun x =>
    if 0 ≤ exponent then
      if exponent.toNat ≤ scalingStep then
        (powerOfTen? exponent.toNat).bind x.mul?
      else if digits = 0 then some x else none
    else divPower? x (-exponent).toNat

example : ofRatio false 1 3 = some ⟨false, 6004799503160661, -54⟩ := by
  decide +kernel
example : ofDecimal? 15 (-1) = some ⟨false, 6755399441055744, -52⟩ := by
  decide +kernel
example : ofDecimal? 1 400 = none ∧ ofDecimal? 0 400 = some (zero false) := by
  decide +kernel

end Binary64
end ChatRelay
