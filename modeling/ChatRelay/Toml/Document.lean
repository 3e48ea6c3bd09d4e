import ChatRelay.Text.Integer
import ChatRelay.Text.Split
import ChatRelay.Toml.Node
/-!
# Settings documents

A parser for the subset of TOML that the settings use: strings, integers, arrays
and tables. A document with any other value is rejected.
-/

namespace ChatRelay.Toml

open Text (Cut digit?)

def isBlank (c : Char) : Bool := c = ' ' || c = '\t'

def skipBlanks (text : List Char) : List Char := text.dropWhile isBlank

/-- The characters that can occur unescaped in strings and comments. -/
def isPlain (c : Char) : Bool := c = '\t' || (' ' ≤ c && c ≠ '\x7f')

/-- Read the end of a line. -/
def newline? : List Char → Option (List Char)
  | '\n' :: rest => some rest
  | '\r' :: '\n' :: rest => some rest
  | _ => none

def skipComment : List Char → List Char
  | '#' :: rest => rest.dropWhile isPlain
  | text => text

/-- Read whitespace, an optional comment, and the end of a line or of the
document. -/
def lineEnd? (text : List Char) : Option (List Char) :=
  match skipComment (skipBlanks text) with
  | [] => some []
  | text => newline? text

/-- Skip whitespace, comments and line ends. -/
def skipLines : (bound : Nat) → List Char → List Char
  | 0, text => text
  | bound + 1, text =>
    let text := skipComment (skipBlanks text)
    match newline? text with
    | some rest => skipLines bound rest
    | none => text

/-- The character with a hexadecimal code point. -/
def codePoint? (digits : List Char) : Option Char := do
  let n ← Text.value? 16 digits
  if n.isValidChar then some (Char.ofNat n) else none

/-- Read an escape after its backslash. -/
def escape : Cut Char
  | 'b' :: rest => some ('\x08', rest)
  | 't' :: rest => some ('\t', rest)
  | 'n' :: rest => some ('\n', rest)
  | 'f' :: rest => some ('\x0c', rest)
  | 'r' :: rest => some ('\r', rest)
  | '"' :: rest => some ('"', rest)
  | '\\' :: rest => some ('\\', rest)
  | 'u' :: rest => do
    guard (4 ≤ rest.length)
    return (← codePoint? (rest.take 4), rest.drop 4)
  | 'U' :: rest => do
    guard (8 ≤ rest.length)
    return (← codePoint? (rest.take 8), rest.drop 8)
  | _ => none

/-- The variant of a string literal. -/
structure Quotes where
  quote : Char
  /-- Whether backslashes escape. -/
  escapes : Bool
  /-- Whether the string is delimited by three quotes and can span several
  lines. -/
  long : Bool

def skipBlankLines : List Char → List Char
  | '\n' :: rest => skipBlankLines rest
  | '\r' :: '\n' :: rest => skipBlankLines rest
  | c :: rest => if isBlank c then skipBlankLines rest else c :: rest
  | [] => []

/-- Read a line continuation after its backslash. -/
def continued? (text : List Char) : Option (List Char) :=
  (newline? (skipBlanks text)).map skipBlankLines

/-- Read a string up to its closing quotes. If a run of quotes ends a multiline
string, its last three close the string. -/
def body (q : Quotes) : (bound : Nat) → (read : List Char) → Cut String
  | 0, _, _ => none
  | bound + 1, read, text =>
    match text with
    | [] => none
    | c :: rest =>
      if c = q.quote then
        if ¬ q.long then some (String.ofList read.reverse, rest)
        else
          let run := text.takeWhile (· = q.quote)
          if run.length < 3 then body q bound (run ++ read)
            (text.drop run.length)
          else if run.length ≤ 5 then
            some
              (String.ofList (run.drop 3 ++ read).reverse, text.drop run.length)
          else none
      else if c = '\\' ∧ q.escapes then
        match if q.long then continued? rest else none with
        | some rest => body q bound read rest
        | none => do
          let (c, rest) ← escape rest
          body q bound (c :: read) rest
      else match if q.long then newline? text else none with
        | some rest => body q bound ('\n' :: read) rest
        | none => if isPlain c then body q bound (c :: read) rest else none

/-- A string on one line. -/
def shortText : Cut String
  | '"' :: rest => body ⟨'"', true, false⟩ (rest.length + 1) [] rest
  | '\'' :: rest => body ⟨'\'', false, false⟩ (rest.length + 1) [] rest
  | _ => none

/-- A multiline string. A line end after the opening quotes is skipped. -/
def longText (q : Quotes) (text : List Char) : Option (String × List Char) :=
  body q (text.length + 1) [] ((newline? text).getD text)

def text : Cut String
  | '"' :: '"' :: '"' :: rest => longText ⟨'"', true, true⟩ rest
  | '\'' :: '\'' :: '\'' :: rest => longText ⟨'\'', false, true⟩ rest
  | other => shortText other

/-- The digits after the first one, separated by single underscores. -/
def moreDigits (radix value : Nat) : List Char → Nat × List Char
  | '_' :: c :: rest =>
    match digit? radix c with
    | some d => moreDigits radix (value * radix + d) rest
    | none => (value, '_' :: c :: rest)
  | c :: rest =>
    match digit? radix c with
    | some d => moreDigits radix (value * radix + d) rest
    | none => (value, c :: rest)
  | [] => (value, [])

/-- A number of one or more digits. -/
def digits (radix : Nat) : Cut Nat
  | [] => none
  | c :: rest => (digit? radix c).map fun d => moreDigits radix d rest

/-- A decimal number without leading zeros. -/
def decimal : Cut Nat
  | '0' :: rest => some (0, rest)
  | other => digits 10 other

def integer (text : List Char) : Option (Int × List Char) := do
  let (i, rest) ← match text with
    | '0' :: 'x' :: rest =>
      (digits 16 rest).map fun (n, rest) => ((n : Int), rest)
    | '0' :: 'o' :: rest =>
      (digits 8 rest).map fun (n, rest) => ((n : Int), rest)
    | '0' :: 'b' :: rest =>
      (digits 2 rest).map fun (n, rest) => ((n : Int), rest)
    | '+' :: rest => (decimal rest).map fun (n, rest) => ((n : Int), rest)
    | '-' :: rest => (decimal rest).map fun (n, rest) => (-(n : Int), rest)
    | other => (decimal other).map fun (n, rest) => ((n : Int), rest)
  guard (Text.minLong ≤ i ∧ i ≤ Text.maxLong)
  return (i, rest)

/-- The characters of a bare key. -/
def isBare (c : Char) : Bool := c.isAlphanum || c = '_' || c = '-'

def key (text : List Char) : Option (String × List Char) :=
  match text.takeWhile isBare with
  | [] => shortText text
  | bare => some (String.ofList bare, text.dropWhile isBare)

def path : (bound : Nat) → Cut (List String)
  | 0, _ => none
  | bound + 1, text => do
    let (k, rest) ← key (skipBlanks text)
    match skipBlanks rest with
    | '.' :: rest =>
      let (ks, rest) ← path bound rest
      return (k :: ks, rest)
    | rest => return ([k], rest)

mutual

def value : (bound : Nat) → Cut Node
  | 0, _ => none
  | bound + 1, input =>
    match input with
    | '"' :: _ | '\'' :: _ => (text input).map fun (s, rest) => (.text s, rest)
    | '[' :: rest => items bound [] rest
    | '\x7b' :: rest =>
      match skipBlanks rest with
      | '\x7d' :: rest => some (.table .inline [], rest)
      | rest => members bound [] rest
    | _ => (integer input).map fun (i, rest) => (.integer i, rest)

/-- The items of an array up to its closing bracket. -/
def items : (bound : Nat) → (read : List Node) → Cut Node
  | 0, _, _ => none
  | bound + 1, read, input =>
    match skipLines input.length input with
    | ']' :: rest => some (.list read.reverse, rest)
    | input => do
      let (node, rest) ← value bound input
      match skipLines rest.length rest with
      | ',' :: rest => items bound (node :: read) rest
      | ']' :: rest => return (.list (node :: read).reverse, rest)
      | _ => none

/-- The members of an inline table up to its closing brace. -/
def members : (bound : Nat) → (read : Members) → Cut Node
  | 0, _, _ => none
  | bound + 1, read, input => do
    let (node, rest) ← setting bound read input
    match skipBlanks rest with
    | ',' :: rest => members bound node rest
    | '\x7d' :: rest => return (.table .inline node, rest)
    | _ => none

/-- A key with its value, added to the given members. -/
def setting : (bound : Nat) → (read : Members) → Cut Members
  | 0, _, _ => none
  | bound + 1, read, input => do
    let (keys, rest) ← path input.length input
    match rest with
    | '=' :: rest =>
      let (node, rest) ← value bound (skipBlanks rest)
      return (← read.assign node keys, rest)
    | _ => none

end

/-- A table header after its opening bracket. -/
def header (input : List Char) : Option (List String × List Char) := do
  let (keys, rest) ← path input.length input
  match rest with
  | ']' :: rest => return (keys, ← lineEnd? rest)
  | _ => none

/-- Read the remaining lines of a document, inside the table of a header. -/
def lines :
    (bound : Nat) → (within : List String) → (read : Members) → List Char →
    Option Members
  | 0, _, _, _ => none
  | bound + 1, within, read, input =>
    match skipBlanks input with
    | [] => some read
    | '#' :: rest => do lines bound within read (← lineEnd? ('#' :: rest))
    | '[' :: rest => do
      let (keys, rest) ← header rest
      lines bound keys (← read.openTable keys) rest
    | input =>
      match newline? input with
      | some rest => lines bound within read rest
      | none => do
        let (keys, rest) ← path input.length input
        match rest with
        | '=' :: rest =>
          let (node, rest) ← value rest.length (skipBlanks rest)
          let read ← read.within (·.assign node keys) within
          lines bound within read (← lineEnd? rest)
        | _ => none

/-- Parse a document. A byte order mark is skipped. -/
def parse? (s : String) : Option Members :=
  let text := match s.toList with
    | '\ufeff' :: rest => rest
    | text => text
  lines (text.length + 1) [] [] text

end ChatRelay.Toml
