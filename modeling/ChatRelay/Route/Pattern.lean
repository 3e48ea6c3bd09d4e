import ChatRelay.Text.Split
/-!
# Route patterns

A pattern consists of a method and a url whose segments are literals or
wildcards. Slashes and whitespace around a url and whitespace around a segment
are trimmed. An empty segment is represented by a reserved text, so that every
url has at least one segment.
-/

namespace ChatRelay

/-- The ways in which a registration can fail. -/
inductive RegistrationError where
  | emptyPattern
  | alreadyRegistered (method url : String)
  deriving DecidableEq, Repr

def RegistrationError.message : RegistrationError → String
  | emptyPattern => "empty pattern"
  | alreadyRegistered method url => s!"route already registered: {method} {url}"

namespace Route

/-- The characters trimmed at the ends of a url. -/
def isMargin (c : Char) : Bool := c = ' ' || c = '/'

/-- The characters trimmed at the ends of a segment. -/
def isSpace (c : Char) : Bool := c = ' '

/-- The braces of a wildcard. -/
def isBrace (c : Char) : Bool := c = '\x7b' || c = '\x7d'

/-- The trimmed segments of a url. -/
def rawSegments (url : String) : List (List Char) :=
  (Text.splitAt '/' (Text.trim isMargin url.toList)).map (Text.trim isSpace)

/-- The representation of an empty segment. -/
def emptySegment : String := "/"

/-- The name of an unnamed wildcard. -/
def anonymous : String := "$"

inductive Segment where
  /-- Matches one text. -/
  | literal (text : String)
  /-- Matches any text. -/
  | wildcard (name : String)
  deriving DecidableEq, Repr

namespace Segment

/-- Parse a trimmed segment. -/
def ofText (text : List Char) : Segment :=
  match text with
  | [] => literal emptySegment
  | first :: _ =>
    if first = '\x7b' ∧ text.getLast? = some '\x7d' then
      match Text.trim isBrace text with
      | [] => wildcard anonymous
      | name => wildcard (String.ofList name)
    else literal (String.ofList text)

/-- The text of a literal, or the name of a wildcard. -/
def text : Segment → String
  | literal s => s
  | wildcard s => s

def name? : Segment → Option String
  | literal _ => none
  | wildcard s => some s

def isWildcard (s : Segment) : Bool := s.name?.isSome

end Segment

/-- The segments by which a url is looked up. -/
def urlSegments (url : String) : List String :=
  (rawSegments url).map fun text => if text.isEmpty then emptySegment
    else String.ofList text

structure Pattern where
  method : String
  url : String
  segments : List Segment
  deriving DecidableEq, Repr

namespace Pattern

/-- Parse a pattern. Neither the method nor the url may be empty. -/
def parse (method url : String) : Except RegistrationError Pattern :=
  if method = "" ∨ url = "" then .error .emptyPattern
  else .ok ⟨method, url, (rawSegments url).map Segment.ofText⟩

/-- The names of the wildcards, from left to right. -/
def wildcards (p : Pattern) : List String := p.segments.filterMap Segment.name?

def text (p : Pattern) : String := s!"{p.method} {p.url}"

end Pattern

example :
    (Pattern.parse "GET" "//user/\x7bid\x7d / \x7b \x7d/").toOption.map
      Pattern.segments =
    some [.literal "user", .wildcard "id", .wildcard " "] := by decide +kernel

end Route
end ChatRelay
