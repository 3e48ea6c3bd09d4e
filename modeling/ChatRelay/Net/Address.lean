import ChatRelay.Text.Integer
import ChatRelay.Text.Split
/-!
# Socket addresses

An IPv4 or IPv6 address with a port. Groups of an IPv6 address are written in
hexadecimal without leading zeros, and the first of the longest runs of zero
groups is elided.
-/

namespace ChatRelay

inductive Host where
  | v4 (bytes : List Nat)
  /-- Eight groups and a scope id. -/
  | v6 (groups : List Nat) (scope : Nat)
  deriving DecidableEq, Repr

structure Address where
  host : Host
  port : Nat
  deriving DecidableEq, Repr

namespace Address

open Text (Cut digit?)

/-- A number up to a limit, consisting of all leading digits. -/
def number (radix limit : Nat) (text : List Char) : Option (Nat × List Char) :=
  let digits := text.takeWhile fun c => (digit? radix c).isSome
  let value := digits.foldl (fun n c => n * radix + (digit? radix c).getD 0) 0
  if digits.isEmpty ∨ limit < value then none
  else some (value, text.drop digits.length)

def mark (c : Char) : Cut Unit
  | [] => none
  | d :: rest => if d = c then some ((), rest) else none

/-- A byte in decimal notation without leading zeros. -/
def byte (text : List Char) : Option (Nat × List Char) := do
  let (n, rest) ← number 10 255 text
  let length := text.length - rest.length
  guard (length ≤ 3 ∧ (text.head? = some '0' → length = 1))
  return (n, rest)

/-- A dotted IPv4 address. -/
def bytes (text : List Char) : Option (List Nat × List Char) := do
  let (a, text) ← byte text
  let ((), text) ← mark '.' text
  let (b, text) ← byte text
  let ((), text) ← mark '.' text
  let (c, text) ← byte text
  let ((), text) ← mark '.' text
  let (d, text) ← byte text
  return ([a, b, c, d], text)

/-- A group of at most four hexadecimal digits. -/
def group (text : List Char) : Option (Nat × List Char) := do
  let (n, rest) ← number 16 65535 text
  guard (text.length - rest.length ≤ 4)
  return (n, rest)

/-- The two groups that represent four bytes. -/
def groupsOfBytes : List Nat → List Nat
  | [a, b, c, d] => [a * 256 + b, c * 256 + d]
  | _ => []

/-- The parser after the colon in front of every group but the first. -/
def behindColon (isFirst : Bool) (text : List Char) : Option (List Char) :=
  if isFirst then some text else (mark ':' text).map Prod.snd

/-- At most `n` groups, and whether the last two are written as an IPv4
address. -/
def groups :
    (room : Nat) → (isFirst : Bool) → List Char → List Nat × Bool × List Char
  | 0, _, text => ([], false, text)
  | room + 1, isFirst, text =>
    match (behindColon isFirst text).bind fun rest =>
        if 0 < room then bytes rest else none with
    | some (bs, rest) => (groupsOfBytes bs, true, rest)
    | none =>
      match (behindColon isFirst text).bind group with
      | none => ([], false, text)
      | some (g, rest) =>
        let (gs, isMixed, rest) := groups room false rest
        (g :: gs, isMixed, rest)

/-- Eight groups, where a double colon represents one or more zero groups. -/
def allGroups (text : List Char) : Option (List Nat × List Char) := do
  let (front, isMixed, rest) := groups 8 true text
  if front.length = 8 then return (front, rest)
  guard (¬ isMixed)
  let ((), rest) ← mark ':' rest
  let ((), rest) ← mark ':' rest
  let (back, _, rest) := groups (7 - front.length) true rest
  return (front ++ List.replicate (8 - front.length - back.length) 0 ++ back,
    rest)

def portNumber (text : List Char) : Option (Nat × List Char) := do
  let ((), text) ← mark ':' text
  number 10 65535 text

/-- A percent sign and a scope id, or nothing. -/
def scope (text : List Char) : Nat × List Char :=
  ((mark '%' text).bind fun ((), rest) => number 10 4294967295 rest).getD
    (0, text)

/-- An IPv4 address with a port. -/
def short (text : List Char) : Option (Address × List Char) := do
  let (bs, text) ← bytes text
  let (port, text) ← portNumber text
  return (⟨.v4 bs, port⟩, text)

/-- A bracketed IPv6 address with a port. -/
def long (text : List Char) : Option (Address × List Char) := do
  let ((), text) ← mark '[' text
  let (gs, text) ← allGroups text
  let (scope, text) := scope text
  let ((), text) ← mark ']' text
  let (port, text) ← portNumber text
  return (⟨.v6 gs scope, port⟩, text)

def parse? (s : String) : Option Address :=
  match (short s.toList).orElse fun _ => long s.toList with
  | some (address, []) => some address
  | _ => none

/-- Numbers separated by a mark. -/
def joined (mark : Char) (write : Nat → List Char) (numbers : List Nat) :
    List Char :=
  [mark].intercalate (numbers.map write)

def bytesText (bs : List Nat) : List Char := joined '.' (Nat.toDigits 10) bs

def groupsText (gs : List Nat) : List Char := joined ':' (Nat.toDigits 16) gs

/-- The lengths of the runs of zeros starting at each group. -/
def zeroRuns (gs : List Nat) : List Nat :=
  (List.range gs.length).map fun i => ((gs.drop i).takeWhile (· = 0)).length

/-- The text of an IPv6 address. Mapped IPv4 addresses are dotted, and the first
longest run of at least two zero groups is elided. -/
def hostText (gs : List Nat) : List Char :=
  match gs with
  | [0, 0, 0, 0, 0, 0xFFFF, a, b] =>
    "::ffff:".toList ++ bytesText [a / 256, a % 256, b / 256, b % 256]
  | _ =>
    let runs := zeroRuns gs
    let longest := runs.foldl max 0
    if 1 < longest then
      let start := runs.idxOf longest
      groupsText (gs.take start) ++ [':', ':'] ++
        groupsText (gs.drop (start + longest))
    else groupsText gs

def text (a : Address) : String :=
  let host := match a.host with
    | .v4 bs => bytesText bs
    | .v6 gs scope =>
      '[' :: hostText gs ++
        (if scope = 0 then [] else '%' :: Nat.toDigits 10 scope) ++ [']']
  String.ofList (host ++ ':' :: Nat.toDigits 10 a.port)

example :
    (parse? "[::FFFF:1.2.3.4]:080").map text = some "[::ffff:1.2.3.4]:80" ∧
    (parse? "[1:0:0:2:0:0:0:3%7]:1").map text = some "[1:0:0:2::3%7]:1" ∧
    parse? "01.2.3.4:1" = none ∧ parse? "1.2.3.4:65536" = none := by
  decide +kernel

end Address
end ChatRelay
