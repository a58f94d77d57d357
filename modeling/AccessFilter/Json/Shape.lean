import AccessFilter.Json.Reader
import AccessFilter.Json.Writer
import AccessFilter.Text.Inspect

/-!
# What is said about a value of the wrong shape

* `Json.Found.message`, `Json.ShapeError.message`  the wording of each cause;
* `Json.Found.ofValue`        what a value is called;
* `Json.readUnexpected`       reads the scalar that stands where something else was expected, so that
                              a fault inside it comes first.
-/

namespace AccessFilter.Json

/-- What a value is called in a message. -/
def Found.message : Found → String
  | .null => "null"
  | .bool true => "boolean `true`"
  | .bool false => "boolean `false`"
  | .integer i => "integer `" ++ String.ofList (intChars i) ++ "`"
  | .float x => "floating point `" ++ String.ofList (x.chars style) ++ "`"
  | .string s => "string " ++ Text.inspect s
  | .sequence => "sequence"
  | .map => "map"

def oneOfMessage : List String → String
  | [a] => "`" ++ a ++ "`"
  | [a, b] => "`" ++ a ++ "` or `" ++ b ++ "`"
  | names => "one of " ++ ", ".intercalate (names.map fun n => "`" ++ n ++ "`")

def ShapeError.message : ShapeError → String
  | .invalidType found expected => "invalid type: " ++ found.message ++ ", expected " ++ expected
  | .invalidLength n expected =>
    "invalid length " ++ String.ofList (intChars n) ++ ", expected " ++ expected
  | .missingField name => "missing field `" ++ name ++ "`"
  | .unknownField name expected =>
    "unknown field `" ++ name ++ "`, expected " ++ oneOfMessage expected
  | .duplicateField name => "duplicate field `" ++ name ++ "`"
  | .oneOrManyStrings => "data did not match any variant of untagged enum OneOrMany"

def Found.ofValue : Value → Found
  | .null => .null
  | .bool b => .bool b
  | .number (.integer i _) => .integer i
  | .number (.float x) => .float x
  | .string s => .string s
  | .array _ => .sequence
  | .object _ => .map

/-- The failure at a value that should have been of another shape. Scalars are read first; lists and
objects are named unread. -/
def readUnexpected (expected : String) (cs : List Char) : Failure :=
  match skipBlanks cs with
  | '[' :: _ => .shape (.invalidType .sequence expected)
  | '\x7b' :: _ => .shape (.invalidType .map expected)
  | cs =>
    match readValue 0 0 cs with
    | .ok (v, _) => .shape (.invalidType (Found.ofValue v) expected)
    | .error f => f

end AccessFilter.Json
