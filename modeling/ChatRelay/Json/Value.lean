import ChatRelay.Decimal.Layout
import ChatRelay.Text.Integer
/-!
# JSON values

Integers of 64 bits, with or without sign, are represented exactly and all other
numbers as binary64. The members of an object are sorted by key, and keys are
unique.
-/

namespace ChatRelay.Json

inductive Number where
  | int (i : Int)
  | real (x : Binary64)
  deriving DecidableEq, Repr, Inhabited

inductive Value where
  | null
  | bool (b : Bool)
  | number (n : Number)
  | string (s : String)
  | array (items : List Value)
  | object (members : List (String × Value))
  deriving Repr, Inhabited

abbrev Members := List (String × Value)

namespace Members

def insert (key : String) (value : Value) : Members → Members
  | [] => [(key, value)]
  | (k, v) :: rest =>
    if key = k then (key, value) :: rest
    else if key < k then (key, value) :: (k, v) :: rest
    else (k, v) :: insert key value rest

def get? (key : String) (members : Members) : Option Value :=
  (List.find? (fun m => m.1 = key) members).map Prod.snd

def erase (key : String) (members : Members) : Members :=
  members.filter fun m => m.1 ≠ key

def has (key : String) (members : Members) : Bool :=
  members.any fun m => m.1 = key

def keys (members : Members) : List String :=
  members.map Prod.fst

/-- The members obtained by inserting assignments in order. -/
def ofList (assignments : List (String × Value)) : Members :=
  assignments.foldl (fun members a => members.insert a.1 a.2) []

end Members

/-- Whether an integer is representable in 64 bits, with or without sign. -/
def Number.inRange (i : Int) : Bool :=
  Text.minLong ≤ i ∧ i ≤ Text.maxNatural

end ChatRelay.Json
