import ChatRelay.Route.Pattern
/-!
# The routing tree

The routes of each method form a tree with one branch per segment. Lookup tries
the literal branch first and the wildcard branch if that fails.
-/

namespace ChatRelay.Route

inductive Tree (α : Type) where
  | node (leaf : Option α) (literals : List (String × Tree α))
    (wild : Option (Tree α))
  deriving Repr

namespace Tree

variable {α : Type}

def empty : Tree α := node none [] none

instance : Inhabited (Tree α) := ⟨empty⟩

/-- The value registered at the root. -/
def leaf : Tree α → Option α
  | node leaf _ _ => leaf

/-- The branch of a literal segment. -/
def literal? (text : String) : Tree α → Option (Tree α)
  | node _ literals _ => (literals.find? fun b => b.1 = text).map Prod.snd

/-- The branch of all wildcards. -/
def wild? : Tree α → Option (Tree α)
  | node _ _ wild => wild

/-- Replace the branch of a text, or append it. -/
def putBranch (text : String) (branch : Tree α) :
    List (String × Tree α) → List (String × Tree α)
  | [] => [(text, branch)]
  | (t, b) :: rest =>
    if t = text then (t, branch) :: rest
    else (t, b) :: putBranch text branch rest

/-- The branch of a pattern segment. -/
def branch (segment : Segment) (tree : Tree α) : Tree α :=
  match segment with
  | .literal text => (tree.literal? text).getD empty
  | .wildcard _ => tree.wild?.getD empty

/-- Replace the branch of a pattern segment. -/
def setBranch (tree : Tree α) (segment : Segment) (new : Tree α) : Tree α :=
  match tree, segment with
  | node leaf literals wild, .literal text =>
    node leaf (putBranch text new literals) wild
  | node leaf literals _, .wildcard _ => node leaf literals (some new)

/-- The value registered for a list of segments. The names of wildcards are
irrelevant. -/
def get? (tree : Tree α) : List Segment → Option α
  | [] => tree.leaf
  | s :: rest => (tree.branch s).get? rest

/-- Register a value for a list of segments. -/
def insert (tree : Tree α) (a : α) : List Segment → Tree α
  | [] =>
    match tree with
    | node _ literals wild => node (some a) literals wild
  | s :: rest => tree.setBranch s ((tree.branch s).insert a rest)

/-- The value that matches the segments of a url, and the captured segments. -/
def find (tree : Tree α) : List String → Option (α × List String)
  | [] => tree.leaf.map fun a => (a, [])
  | s :: rest =>
    match (tree.literal? s).bind fun t => t.find rest with
    | some found => some found
    | none =>
      (tree.wild?.bind fun t => t.find rest).map fun (a, taken) =>
        (a, s :: taken)

mutual

def size : Tree α → Nat
  | node leaf literals wild =>
    (if leaf.isSome then 1 else 0) + sizeLiterals literals + sizeWild wild

def sizeLiterals : List (String × Tree α) → Nat
  | [] => 0
  | (_, t) :: rest => t.size + sizeLiterals rest

def sizeWild : Option (Tree α) → Nat
  | none => 0
  | some t => t.size

end

end Tree

/-- Routing trees by method. -/
structure Table (α : Type) where
  roots : List (String × Tree (Pattern × α)) := []

namespace Table

variable {α : Type}

instance : Inhabited (Table α) := ⟨{}⟩

def root (table : Table α) (method : String) : Tree (Pattern × α) :=
  ((table.roots.find? fun r => r.1 = method).map Prod.snd).getD .empty

/-- Register a value, unless there is one at the same place. -/
def insert (table : Table α) (pattern : Pattern) (a : α) :
    Except RegistrationError (Table α) :=
  let root := table.root pattern.method
  match root.get? pattern.segments with
  | some _ => .error (.alreadyRegistered pattern.method pattern.url)
  | none =>
    .ok ⟨Tree.putBranch pattern.method
      (root.insert (pattern, a) pattern.segments) table.roots⟩

structure Match (α : Type) where
  pattern : Pattern
  value : α
  /-- The captured segments, from left to right. -/
  taken : List String

/-- Look up a method and a url. -/
def find? (table : Table α) (method url : String) : Option (Match α) :=
  if method = "" ∨ url = "" then none
  else ((table.root method).find (urlSegments url)).map
      fun ((pattern, value), taken) =>
    { pattern, value, taken }

def size (table : Table α) : Nat := Tree.sizeLiterals table.roots

end Table

end ChatRelay.Route
