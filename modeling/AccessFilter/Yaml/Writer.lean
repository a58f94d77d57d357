import AccessFilter.Json.Writer
import AccessFilter.Yaml.Scalar.Written

/-!
# Values as YAML text

Collections are written as blocks, two columns further in per level; a sequence that is the value of
a key is not indented. Empty collections are written as `[]` and as a pair of braces. A key that is
long or has several lines stands behind a question mark.

* `Yaml.style`       how doubles are written;
* `Yaml.isShortKey`  keys without a question mark;
* `Value.yaml`       the text.
-/

namespace AccessFilter

namespace Yaml

/-- Doubles carry no sign in a positive exponent. -/
def style : DecimalStyle := ⟨"e"⟩

/-- Whether a key stands on one line and has at most 128 octets. -/
def isShortKey (key : String) : Bool := !key.toList.any isBreak && key.utf8ByteSize ≤ 128

/-- A scalar, or an empty collection. -/
def writtenScalar (indent : Nat) : Value → List Char
  | .null => "null".toList
  | .bool true => "true".toList
  | .bool false => "false".toList
  | .number n => n.chars style
  | .string s => writtenString indent s
  | .array _ => "[]".toList
  | .object _ => ['\x7b', '\x7d']

/-- A key with its mark, and what brings a value on to the same line or to the next one. -/
def writtenKey (indent : Nat) (key : String) : List Char :=
  if isShortKey key then writtenString (indent + 2) key ++ [':']
  else '?' :: ' ' :: endLine (writtenString (indent + 2) key) ++ blanks indent ++ [':']

end Yaml

open Yaml

mutual

/-- A value at a column that is already reached, to the end of its last line. -/
def Value.yamlChars (column : Nat) : Value → List Char
  | .array (v :: vs) => '-' :: ' ' :: v.yamlChars (column + 2) ++ Value.yamlItems column vs
  | .object ((k, v) :: fs) =>
    writtenKey column k ++ v.yamlAfter column (isShortKey k) ++ Value.yamlFields column fs
  | v => endLine (writtenScalar column v)

/-- A value behind the colon of its key, whose mapping starts at a column. Behind a short key a
collection starts on the next line. -/
def Value.yamlAfter (column : Nat) (short : Bool) : Value → List Char
  | .array (v :: vs) =>
    if short then
      '\n' :: blanks column ++ '-' :: ' ' :: v.yamlChars (column + 2) ++ Value.yamlItems column vs
    else
      ' ' :: '-' :: ' ' :: v.yamlChars (column + 4) ++ Value.yamlItems (column + 2) vs
  | .object ((k, v) :: fs) =>
    (if short then '\n' :: blanks (column + 2) else [' ']) ++ writtenKey (column + 2) k ++
      v.yamlAfter (column + 2) (isShortKey k) ++ Value.yamlFields (column + 2) fs
  | v => ' ' :: endLine (writtenScalar (column + 2) v)

/-- The items after the first, each on a line of its own. -/
def Value.yamlItems (column : Nat) : List Value → List Char
  | [] => []
  | v :: vs =>
    blanks column ++ '-' :: ' ' :: v.yamlChars (column + 2) ++ Value.yamlItems column vs

/-- The fields after the first, each on a line of its own. -/
def Value.yamlFields (column : Nat) : List (String × Value) → List Char
  | [] => []
  | (k, v) :: fs =>
    blanks column ++ writtenKey column k ++ v.yamlAfter column (isShortKey k) ++
      Value.yamlFields column fs

end

def Value.yaml (v : Value) : String := String.ofList (v.yamlChars 0)

end AccessFilter
