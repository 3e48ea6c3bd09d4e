import ChatRelay.Json.Fault
/-!
# Debug output of JSON values

The debug representation names the constructor of every value and quotes all
texts.
-/

namespace ChatRelay.Json

/-- The characters of a quoted text. -/
def describeText (s : String) : List Char := (Text.quoted s).toList

mutual

def Value.describe : Value → List Char
  | .null => "Null".toList
  | .bool b => s!"Bool({b})".toList
  | .number n => "Number(".toList ++ n.write ++ [')']
  | .string s => "String(".toList ++ describeText s ++ [')']
  | .array items => "Array [".toList ++ describeItems items ++ [']']
  | .object members =>
    "Object \x7b".toList ++ describeMembers members ++ ['\x7d']

/-- The representations of items, separated by commas. -/
def describeItems : List Value → List Char
  | [] => []
  | [v] => v.describe
  | v :: rest => v.describe ++ ',' :: ' ' :: describeItems rest

/-- The representations of members, separated by commas. -/
def describeMembers : List (String × Value) → List Char
  | [] => []
  | [(key, v)] => describeText key ++ ':' :: ' ' :: v.describe
  | (key, v) :: rest =>
    describeText key ++ ':' :: ' ' :: v.describe ++
      ',' :: ' ' :: describeMembers rest

end

end ChatRelay.Json
