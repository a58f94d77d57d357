import AccessFilter.Json.Shape
import AccessFilter.Rule.Basic

/-!
# Reading rules

A rule is an object with the fields `action`, `subject`, `conditions`, `inverted` and `reason`, or a
list of these five in this order; what is missing is absent and unknown fields are ignored. An
action or subject is one string or a list of strings.

* `Rule.ofValue`   a rule from a value;
* `Rule.listOfValue`  a list of rules from a value;
* `Rule.parse`     a rule from JSON text, where the first failure in reading order counts.
-/

namespace AccessFilter

namespace Rule

open Json (Failure Found ShapeError)

/-! ## the fields -/

inductive Field where
  | action
  | subject
  | conditions
  | inverted
  | reason
deriving DecidableEq

namespace Field

/-- All fields, in the order of the list form. -/
def all : List Field := [.action, .subject, .conditions, .inverted, .reason]

def key : Field → String
  | .action => "action"
  | .subject => "subject"
  | .conditions => "conditions"
  | .inverted => "inverted"
  | .reason => "reason"

def ofKey? (key : String) : Option Field := all.find? (·.key == key)

end Field

theorem ofKey?_key (field : Field) : Field.ofKey? field.key = some field := by
  cases field <;> rfl

/-- The strings of a list, if it holds nothing else. -/
def strings? : List Value → Option (List String)
  | [] => some []
  | .string s :: vs => (strings? vs).map (s :: ·)
  | _ :: _ => none

theorem strings?_map_string (ss : List String) : strings? (ss.map .string) = some ss := by
  induction ss with
  | nil => rfl
  | cons s ss ih => rw [List.map_cons, strings?, ih, Option.map_some]

def oneOrMany? : Value → Option (List String)
  | .string s => some [s]
  | .array vs => strings? vs
  | _ => none

/-- One string or a list of strings. -/
def oneOrMany (v : Value) : Except ShapeError (List String) :=
  match oneOrMany? v with
  | some ss => .ok ss
  | none => .error .oneOrManyStrings

/-! ## from a value -/

def setField (r : Rule) (field : Field) (v : Value) : Except ShapeError Rule :=
  match field with
  | .action => (oneOrMany v).map fun ss => { r with actions := ss }
  | .subject => (oneOrMany v).map fun ss => { r with subjects := ss }
  | .conditions =>
    match v with
    | .null => .ok { r with conditions := none }
    | .object fs => .ok { r with conditions := some fs }
    | v => .error (.invalidType (Found.ofValue v) "a map")
  | .inverted =>
    match v with
    | .bool b => .ok { r with denies := b }
    | v => .error (.invalidType (Found.ofValue v) "a boolean")
  | .reason =>
    match v with
    | .null => .ok { r with reason := none }
    | .string s => .ok { r with reason := some s }
    | v => .error (.invalidType (Found.ofValue v) "a string")

def setFields (r : Rule) : List (String × Value) → Except ShapeError Rule
  | [] => .ok r
  | (k, v) :: rest =>
    match Field.ofKey? k with
    | some field => do setFields (← setField r field v) rest
    | none => setFields r rest

/-- The items of a list form, one after the other; gives what is left over too. -/
def setItems (r : Rule) : List Field → List Value → Except ShapeError (Rule × List Value)
  | field :: fields, v :: vs => do setItems (← setField r field v) fields vs
  | _, vs => .ok (r, vs)

def ofValue : Value → Except ShapeError Rule
  | .object fs => setFields {} fs
  | .array vs => do
    let (r, rest) ← setItems {} Field.all vs
    if rest.isEmpty then return r
    else throw (.invalidLength vs.length "fewer elements in array")
  | v => .error (.invalidType (Found.ofValue v) "struct Rule")

def listOfValue : Value → Except ShapeError (List Rule)
  | .array vs => vs.mapM ofValue
  | v => .error (.invalidType (Found.ofValue v) "a sequence")

/-! ## from text -/

def shapeFailure {α : Type} : Except ShapeError α → Except Failure α
  | .ok v => .ok v
  | .error e => .error (.shape e)

/-- Read a field of a rule whose containers are nested at most `depth` deep. Only the part of a
value of the wrong shape that tells its kind is read. The fuel bounds the length of the field. -/
def readField (depth fuel : Nat) (r : Rule) (field : Field) (cs : List Char) :
    Except Failure (Rule × List Char) :=
  let cs := Json.skipBlanks cs
  let full : Except Failure (Rule × List Char) := do
    let (v, rest) ← Json.readValue fuel depth cs
    return (← shapeFailure (setField r field v), rest)
  match field, cs with
  | .action, _ => full
  | .subject, _ => full
  | _, [] => .error .endOfText
  | .conditions, 'n' :: _ => full
  | .conditions, '\x7b' :: _ => full
  | .conditions, _ => .error (Json.readUnexpected "a map" cs)
  | .inverted, 't' :: _ => full
  | .inverted, 'f' :: _ => full
  | .inverted, _ => .error (Json.readUnexpected "a boolean" cs)
  | .reason, 'n' :: _ => full
  | .reason, '"' :: _ => full
  | .reason, _ => .error (Json.readUnexpected "a string" cs)

/-- The fields of a rule after the opening brace. A known field may come once; its repetition is
noticed at the key. The fuel bounds the length of the text. -/
def readFields (depth : Nat) (fuel : Nat) (first : Bool) (seen : List Field) (r : Rule)
    (cs : List Char) : Except Failure (Rule × List Char) :=
  match fuel with
  | 0 => .error .malformed
  | fuel + 1 => do
    let (more, cs) ← Json.nextKey first cs
    if more then
      let (k, cs) ← Json.readString cs
      match Field.ofKey? (String.ofList k) with
      | some field =>
        if field ∈ seen then throw (.shape (.duplicateField field.key))
        let cs ← Json.readColon cs
        let (r, cs) ← readField depth fuel r field cs
        readFields depth fuel false (field :: seen) r cs
      | none =>
        let cs ← Json.readColon cs
        let cs ← Json.skipValue fuel cs
        readFields depth fuel false seen r cs
    else return (r, cs)

/-- The items of the list form after the opening bracket. The fuel bounds the length of each. -/
def readItems (depth fuel : Nat) (first : Bool) (r : Rule) (fields : List Field) (cs : List Char) :
    Except Failure (Rule × List Char) :=
  match fields with
  | [] =>
    -- only the closing bracket may follow
    match Json.skipBlanks cs with
    | [] => .error .endOfText
    | ']' :: rest => .ok (r, rest)
    | _ => .error .malformed
  | field :: fields => do
    let (more, cs) ← Json.nextItem first cs
    if more then
      let (r, cs) ← readField depth fuel r field cs
      readItems depth fuel false r fields cs
    else return (r, cs)

def read (cs : List Char) : Except Failure (Rule × List Char) :=
  match Json.skipBlanks cs with
  | '\x7b' :: rest => readFields (Json.maxDepth - 1) (rest.length + 1) true [] {} rest
  | '[' :: rest => readItems (Json.maxDepth - 1) (rest.length + 1) true {} Field.all rest
  | cs => .error (Json.readUnexpected "struct Rule" cs)

def parse (text : String) : Except Failure Rule := Json.finish (read text.toList)

end Rule

end AccessFilter
