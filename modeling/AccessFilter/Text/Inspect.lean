import AccessFilter.Text.Printable

/-!
# Text shown in quotes

`Text.inspect` shows a text between double quotes; quotes, backslashes and characters that are not
shown as they are become escapes, the latter by their code point in braces.
-/

namespace AccessFilter.Text

def hexDigits (n : Nat) : List Char := Nat.toDigits 16 n

def inspectChar (c : Char) : List Char :=
  if c = '\x00' then ['\\', '0']
  else if c = '\t' then ['\\', 't']
  else if c = '\n' then ['\\', 'n']
  else if c = '\r' then ['\\', 'r']
  else if c = '"' then ['\\', '"']
  else if c = '\\' then ['\\', '\\']
  else if isPrintable c then [c]
  else '\\' :: 'u' :: '\x7b' :: hexDigits c.toNat ++ ['\x7d']

/-- A text between quotes. -/
def inspect (s : String) : String := String.ofList ('"' :: s.toList.flatMap inspectChar ++ ['"'])

end AccessFilter.Text
