import ChatRelay.Text.Hidden
/-!
# Debug output of texts

A quoted text escapes quotes, backslashes, line ends and unprintable characters.
-/

namespace ChatRelay.Text

/-- A number in lowercase hexadecimal digits. -/
def hexadecimal (n : Nat) : List Char := Nat.toDigits 16 n

/-- The escaped form of a character. -/
def quotedChar (c : Char) : List Char :=
  if c = '\x00' then ['\\', '0']
  else if c = '\t' then ['\\', 't']
  else if c = '\r' then ['\\', 'r']
  else if c = '\n' then ['\\', 'n']
  else if c = '\\' ∨ c = '"' then ['\\', c]
  else if isHidden c then '\\' :: 'u' :: '\x7b' ::
    hexadecimal c.toNat ++ ['\x7d']
  else [c]

def quoted (s : String) : String :=
  String.ofList ('"' :: s.toList.flatMap quotedChar ++ ['"'])

example : quoted "é\x01\n\"" = "\"é\\u\x7b1\x7d\\n\\\"\"" := by decide +kernel

end ChatRelay.Text
