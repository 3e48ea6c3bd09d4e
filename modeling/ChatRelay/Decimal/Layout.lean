import ChatRelay.Decimal.Shortest
/-!
# Decimal layout

A layout determines the magnitudes at which a number is written in scientific
notation.
-/

namespace ChatRelay

structure Layout where
  /-- The least decimal exponent that is written in plain notation. -/
  leastPlain : Int
  /-- The least greater decimal exponent that is written in scientific
  notation. -/
  leastScientific : Int
  /-- The sign of a nonnegative exponent. -/
  plusSign : List Char

namespace Layout

def digitsOf (n : Nat) : List Char := Nat.toDigits 10 n

def zeros (n : Nat) : List Char := List.replicate n '0'

/-- Plain notation, with at least one digit after the point. -/
def plain (digits : List Char) (exponent : Int) : List Char :=
  if 0 ≤ exponent then digits ++ zeros exponent.toNat ++ ['.', '0']
  else
    let behind := (-exponent).toNat
    if behind < digits.length then
      digits.take (digits.length - behind) ++
        '.' :: digits.drop (digits.length - behind)
    else '0' :: '.' :: zeros (behind - digits.length) ++ digits

/-- Scientific notation, without a point after a single digit. -/
def scientific (layout : Layout) (digits : List Char) (power : Int) :
    List Char :=
  let mantissa := match digits with
    | [] => []
    | [d] => [d]
    | d :: rest => d :: '.' :: rest
  let sign := if 0 ≤ power then layout.plusSign else ['-']
  mantissa ++ 'e' :: sign ++ digitsOf power.natAbs

def render (layout : Layout) (negative : Bool) (x : Decimal) : List Char :=
  let digits := digitsOf x.digits
  let power := x.exponent + digits.length - 1
  let body :=
    if x.digits = 0 then ['0', '.', '0']
    else if layout.leastPlain ≤ power ∧ power < layout.leastScientific then
      plain digits x.exponent
    else layout.scientific digits power
  if negative then '-' :: body else body

end Layout
end ChatRelay
