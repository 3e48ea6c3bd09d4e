/-!
# Dates

Dates of the proleptic Gregorian calendar, numbered from 1 January 1970.
-/

namespace ChatRelay

/-- A year, month and day, not necessarily a valid date. -/
structure Date where
  year : Nat
  month : Nat
  day : Nat
  deriving DecidableEq, Repr

namespace Date

def isLeap (year : Nat) : Bool :=
  year % 4 = 0 ∧ (year % 100 ≠ 0 ∨ year % 400 = 0)

/-- The lengths of the months of a year. -/
def monthLengths (year : Nat) : List Nat :=
  [31, if isLeap year then 29 else 28, 31, 30, 31, 30, 31, 31, 30, 31, 30, 31]

def isValid (d : Date) : Bool :=
  1 ≤ d.month ∧ d.month ≤ 12 ∧ 1 ≤ d.day ∧
    d.day ≤ (monthLengths d.year)[d.month - 1]?.getD 0

/-- The number of days between the start of year 0 and the start of a year. -/
def daysBeforeYear (year : Nat) : Nat :=
  year * 365 + (year + 3) / 4 - (year + 99) / 100 + (year + 399) / 400

/-- The number of days of a year before a month. -/
def daysBeforeMonth (d : Date) : Nat :=
  ((monthLengths d.year).take (d.month - 1)).foldl (· + ·) 0

/-- The number of days from 1 January 1970 to a date. -/
def dayNumber (d : Date) : Int :=
  (daysBeforeYear d.year + d.daysBeforeMonth + d.day : Nat) -
    (daysBeforeYear 1970 + 1 : Nat)

example : dayNumber ⟨1970, 1, 1⟩ = 0 ∧ dayNumber ⟨2000, 3, 1⟩ = 11017 ∧
    dayNumber ⟨0, 1, 1⟩ = -719528 ∧ dayNumber ⟨9999, 12, 31⟩ = 2932896 := by
  decide

end Date
end ChatRelay
