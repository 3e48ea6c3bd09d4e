/-!
# Settings tables

The tree of tables of a document. A table is defined once: by a header, by the
first dotted key with its prefix, or inline. A table that was only implied by
the header of another one can still be defined by a header.
-/

namespace ChatRelay.Toml

/-- The ways in which a table is created. -/
inductive Origin where
  /-- Implied by the header of another table. -/
  | implied
  /-- Defined by a header. -/
  | header
  /-- Defined by dotted keys. -/
  | dotted
  /-- Defined inline. -/
  | inline
  deriving DecidableEq, Repr

inductive Node where
  | text (s : String)
  | integer (i : Int)
  | list (items : List Node)
  | table (origin : Origin) (members : List (String × Node))
  deriving Repr

instance : Inhabited Node := ⟨.list []⟩

/-- Keys with their values, in the order of the document. -/
abbrev Members := List (String × Node)

namespace Members

/-- Replace the value of a key, or append it. -/
def put (key : String) (node : Node) : Members → Members
  | [] => [(key, node)]
  | (k, n) :: rest =>
    if k = key then (k, node) :: rest else (k, n) :: put key node rest

/-- Assign a value to a dotted key. A key is assigned once, and only tables
defined by dotted keys are extended. -/
def assign (members : Members) (node : Node) : List String → Option Members
  | [] => none
  | [key] =>
    if (members.lookup key).isSome then none
    else some (members ++ [(key, node)])
  | key :: rest => do
    let inner ← match members.lookup key with
      | none => some []
      | some (.table .dotted inner) => some inner
      | some (.table .implied inner) =>
        if 1 < rest.length then some inner else none
      | some _ => none
    let origin := match members.lookup key with
      | some (.table origin _) => origin
      | _ => .dotted
    return put key (.table origin (← assign inner node rest)) members

/-- Define the table of a header. -/
def openTable (members : Members) : List String → Option Members
  | [] => none
  | [key] =>
    match members.lookup key with
    | none => some (members ++ [(key, .table .header [])])
    | some (.table .implied inner) =>
      some (put key (.table .header inner) members)
    | some _ => none
  | key :: rest =>
    match members.lookup key with
    | none =>
      do return members ++ [(key, .table .implied (← openTable [] rest))]
    | some (.table .inline _) => none
    | some (.table origin inner) => do
      return put key (.table origin (← openTable inner rest)) members
    | some _ => none

/-- Update the members of the table that a header defined. -/
def within (members : Members) (f : Members → Option Members) :
    List String → Option Members
  | [] => f members
  | key :: rest =>
    match members.lookup key with
    | some (.table origin inner) => do
      return put key (.table origin (← within inner f rest)) members
    | _ => none

end Members
end ChatRelay.Toml
