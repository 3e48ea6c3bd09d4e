/-!
# Splitting texts

Trimming, splitting, and elementary parsers.
-/

namespace ChatRelay.Text

/-- Drop the characters of a class at both ends. -/
def trim (p : Char → Bool) (text : List Char) : List Char :=
  ((text.dropWhile p).reverse.dropWhile p).reverse

/-- The parts of a text between separators. -/
def splitAt {α : Type} [DecidableEq α] (separator : α) (text : List α) :
    List (List α) :=
  text.foldr (fun c parts =>
    if c = separator then [] :: parts
    else match parts with
      | [] => [[c]]
      | part :: rest => (c :: part) :: rest) [[]]

/-- The length of the UTF-8 encoding. -/
def byteSize (text : List Char) : Nat :=
  text.foldr (fun c n => c.utf8Size + n) 0

/-- A parser of a part of a text, which returns the rest. -/
abbrev Cut (α : Type) := List Char → Option (α × List Char)

/-- Drop a given text at the front. -/
def dropFront? (front text : List Char) : Option (List Char) :=
  if front.isPrefixOf text then some (text.drop front.length) else none

/-- The text between an opening and a closing character. -/
def between? (opening closing : Char) : List Char → Option (List Char)
  | [] => none
  | first :: rest =>
    if first = opening ∧ rest.getLast? = some closing then some rest.dropLast
    else none

end ChatRelay.Text
