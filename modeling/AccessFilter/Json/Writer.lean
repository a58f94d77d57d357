import AccessFilter.Decimal.Shortest
import AccessFilter.Value.Basic

/-!
# Values as JSON text

* `Json.escape`     a character inside a string: quote, backslash and the controls are escaped;
* `Value.json`      the compact text: no blanks, fields in their order;
* `Value.pretty`    the same over several lines, two blanks per level.
-/

namespace AccessFilter

namespace Json

/-- Doubles carry a sign in a positive exponent. -/
def style : DecimalStyle := ⟨"e+"⟩

def hexDigit (n : Nat) : Char := Nat.digitChar (n % 16)

def escape (c : Char) : List Char :=
  if c = '"' then ['\\', '"']
  else if c = '\\' then ['\\', '\\']
  else if c = '\x08' then ['\\', 'b']
  else if c = '\t' then ['\\', 't']
  else if c = '\n' then ['\\', 'n']
  else if c = '\x0c' then ['\\', 'f']
  else if c = '\r' then ['\\', 'r']
  else if c.toNat < 0x20 then ['\\', 'u', '0', '0', hexDigit (c.toNat / 16), hexDigit c.toNat]
  else [c]

def quoted (s : String) : List Char := '"' :: s.toList.flatMap escape ++ ['"']

def intChars (i : Int) : List Char :=
  if i < 0 then '-' :: Nat.toDigits 10 i.natAbs else Nat.toDigits 10 i.natAbs

end Json

/-- A number in a style: integers by their digits. -/
def Number.chars (style : DecimalStyle) : Number → List Char
  | .integer i _ => Json.intChars i
  | .float x => x.chars style

/-! ## compact text -/

mutual

/-- The compact JSON text. -/
def Value.jsonChars : Value → List Char
  | .null => "null".toList
  | .bool true => "true".toList
  | .bool false => "false".toList
  | .number n => n.chars Json.style
  | .string s => Json.quoted s
  | .array [] => "[]".toList
  | .array (v :: vs) => '[' :: v.jsonChars ++ Value.jsonItems vs
  | .object [] => ['\x7b', '\x7d']
  | .object ((k, v) :: fs) => '\x7b' :: Json.quoted k ++ ':' :: v.jsonChars ++ Value.jsonFields fs

/-- The items after the first, and the closing bracket. -/
def Value.jsonItems : List Value → List Char
  | [] => [']']
  | v :: vs => ',' :: v.jsonChars ++ Value.jsonItems vs

/-- The fields after the first, and the closing brace. -/
def Value.jsonFields : List (String × Value) → List Char
  | [] => ['\x7d']
  | (k, v) :: fs => ',' :: Json.quoted k ++ ':' :: v.jsonChars ++ Value.jsonFields fs

end

def Value.json (v : Value) : String := String.ofList v.jsonChars

/-! ## text over several lines -/

/-- A new line at a level. -/
def Json.newLine (level : Nat) : List Char := '\n' :: List.replicate (2 * level) ' '

mutual

/-- The JSON text over several lines, the value itself standing at a level. -/
def Value.prettyChars (level : Nat) : Value → List Char
  | .array [] => "[]".toList
  | .array (v :: vs) =>
    '[' :: Json.newLine (level + 1) ++ v.prettyChars (level + 1) ++ Value.prettyItems level vs
  | .object [] => ['\x7b', '\x7d']
  | .object ((k, v) :: fs) =>
    '\x7b' :: Json.newLine (level + 1) ++ Json.quoted k ++ ':' :: ' ' :: v.prettyChars (level + 1) ++
      Value.prettyFields level fs
  | v => v.jsonChars

def Value.prettyItems (level : Nat) : List Value → List Char
  | [] => Json.newLine level ++ [']']
  | v :: vs =>
    ',' :: Json.newLine (level + 1) ++ v.prettyChars (level + 1) ++ Value.prettyItems level vs

def Value.prettyFields (level : Nat) : List (String × Value) → List Char
  | [] => Json.newLine level ++ ['\x7d']
  | (k, v) :: fs =>
    ',' :: Json.newLine (level + 1) ++ Json.quoted k ++ ':' :: ' ' :: v.prettyChars (level + 1) ++
      Value.prettyFields level fs

end

/-- The JSON text over several lines. -/
def Value.pretty (v : Value) : String := String.ofList (v.prettyChars 0)

end AccessFilter
