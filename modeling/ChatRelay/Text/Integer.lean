/-!
# Parsing integers

An integer consists of an optional sign and at least one digit. For a radix
above ten, letters of either case are digits.
-/

namespace ChatRelay.Text

/-- The value of a digit in a radix of at most 16. -/
def digit? (radix : Nat) (c : Char) : Option Nat :=
  let value :=
    if c.isDigit then some (c.toNat - '0'.toNat)
    else if 'a' ≤ c ∧ c ≤ 'f' then some (c.toNat - 'a'.toNat + 10)
    else if 'A' ≤ c ∧ c ≤ 'F' then some (c.toNat - 'A'.toNat + 10)
    else none
  value.filter (· < radix)

/-- The number denoted by a possibly empty list of digits. -/
def value? (radix : Nat) (text : List Char) : Option Nat :=
  text.foldl (fun value c => do return (← value) * radix + (← digit? radix c))
    (some 0)

/-- The number denoted by a nonempty list of digits. -/
def digits? (text : List Char) : Option Nat :=
  if text.isEmpty then none else value? 10 text

/-- A natural number up to a limit. -/
def natural? (limit : Nat) (s : String) : Option Nat :=
  let digits := match s.toList with
    | '+' :: rest => rest
    | text => text
  (digits? digits).filter (· ≤ limit)

/-- An integer in the given range. -/
def integer? (least greatest : Int) (s : String) : Option Int :=
  let value : Option Int := match s.toList with
    | '+' :: rest => (digits? rest).map Int.ofNat
    | '-' :: rest => (digits? rest).map fun n => -(n : Int)
    | text => (digits? text).map Int.ofNat
  value.filter fun i => least ≤ i ∧ i ≤ greatest

def maxNatural : Nat := 18446744073709551615

def maxLong : Int := 9223372036854775807

def minLong : Int := -9223372036854775808

def long? (s : String) : Option Int := integer? minLong maxLong s

example :
    maxNatural + 1 = 2 ^ 64 ∧ maxLong + 1 = 2 ^ 63 ∧ minLong = -2 ^ 63 := by
  decide

example :
    natural? maxNatural "+007" = some 7 ∧ natural? maxNatural "-0" = none ∧
    long? "-0" = some 0 ∧ long? "+" = none ∧ long? "" = none := by
  decide +kernel

end ChatRelay.Text
