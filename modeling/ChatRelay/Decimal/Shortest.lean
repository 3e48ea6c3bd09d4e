import ChatRelay.Decimal.Binary64
/-!
# Shortest round-trip decimals

The reals that round to a given number form an interval. `shortest` is the
decimal with the fewest digits in that interval, and among those the one nearest
to the number.
-/

namespace ChatRelay

/-- The decimal `digits * 10 ^ exponent`. -/
structure Decimal where
  digits : Nat
  exponent : Int
  deriving DecidableEq, Repr, Inhabited

namespace Decimal

/-- The same decimal without at most `bound` trailing zeros. -/
def dropZeros : Nat → Decimal → Decimal
  | 0, x => x
  | n + 1, x =>
    if x.digits ≠ 0 ∧ x.digits % 10 = 0 then dropZeros n ⟨x.digits / 10,
      x.exponent + 1⟩ else x

end Decimal

namespace Binary64

/-- The reals that round to a number: the number, its lower and its upper end in
quarters of the last binary place, the common denominator, and whether the ends
are included. -/
structure Interval where
  value : Nat
  lower : Nat
  upper : Nat
  den : Nat
  closed : Bool
  deriving Repr

/-- The rounding interval of a number. Below a power of two the spacing is
halved. -/
def interval (x : Binary64) : Interval :=
  let up := Nat.pow 2 x.exponent.toNat
  let below :=
    if x.mantissa = Nat.pow 2 52 ∧ leastExponent < x.exponent then 1 else 2
  { value := 4 * x.mantissa * up
    lower := (4 * x.mantissa - below) * up
    upper := (4 * x.mantissa + 2) * up
    den := 4 * Nat.pow 2 (-x.exponent).toNat
    closed := x.mantissa % 2 = 0 }

/-- The terms of `digits * 10 ^ p`, relative to the denominator `den`, as a
fraction. -/
def onGrid (den digits : Nat) (p : Int) : Nat × Nat :=
  if 0 ≤ p then (digits * Nat.pow 10 p.toNat * den, 1)
  else (digits * den, Nat.pow 10 (-p).toNat)

/-- Whether the decimal `digits * 10 ^ p` lies in an interval. -/
def Interval.holds (i : Interval) (digits : Nat) (p : Int) : Bool :=
  let (n, d) := onGrid i.den digits p
  if i.closed then i.lower * d ≤ n && n ≤ i.upper * d
  else i.lower * d < n && n < i.upper * d

/-- The multiple of `10 ^ p` nearest to the number, if a multiple of `10 ^ p`
lies in the interval. -/
def Interval.onGrid? (i : Interval) (p : Int) : Option Nat :=
  let (n, d) := if 0 ≤ p then (i.value, i.den * Nat.pow 10 p.toNat)
    else (i.value * Nat.pow 10 (-p).toNat, i.den)
  let low := n / d
  let nearest := roundHalfEven n d
  let other := if nearest = low then low + 1 else low
  if nearest ≠ 0 ∧ i.holds nearest p then some nearest
  else if other ≠ 0 ∧ i.holds other p then some other
  else none

/-- Search for a decimal on successively finer grids. -/
def Interval.search (i : Interval) : Nat → Int → Option Decimal
  | 0, _ => none
  | n + 1, p =>
    match i.onGrid? p with
    | some digits => some ⟨digits, p⟩
    | none => i.search n (p - 1)

/-- Whether `10 ^ k` is at most the number. -/
def Interval.reaches (i : Interval) (k : Int) : Bool :=
  if 0 ≤ k then i.den * Nat.pow 10 k.toNat ≤ i.value
  else i.den ≤ i.value * Nat.pow 10 (-k).toNat

/-- The decimal exponent of the number's first digit. -/
def Interval.magnitude (i : Interval) : Int :=
  let guess :=
    ((Nat.log2 i.value : Int) - (Nat.log2 i.den : Int)) * 30103 / 100000
  if i.reaches (guess + 1) then guess + 1
  else if i.reaches guess then guess
  else guess - 1

/-- Seventeen digits distinguish all numbers. -/
def mostDigits : Nat := 17

def shortest (x : Binary64) : Decimal :=
  if x.mantissa = 0 then ⟨0, 0⟩
  else
    let i := x.interval
    ((i.search mostDigits i.magnitude).getD ⟨x.mantissa, x.exponent⟩).dropZeros
      mostDigits

example : (ofDecimal? 1 (-1)).map shortest = some ⟨1, -1⟩ := by decide +kernel
example : shortest ⟨false, 1, leastExponent⟩ = ⟨5, -324⟩ := by decide +kernel
example : (ofNat? (2 ^ 64)).map shortest = some ⟨18446744073709552, 3⟩ := by
  decide +kernel

end Binary64
end ChatRelay
