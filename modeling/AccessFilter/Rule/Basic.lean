import AccessFilter.Json.Writer

/-!
# Rules: who may do what under which conditions

* `Rule`           an allow or deny rule for some actions on some subjects;
* `Rule.when`      one more condition, known fields keeping their place;
* `Rule.isUnconditioned`  no condition at all;
* `Rule.display`   the rule in words;
* `Rule.toValue`   the rule as an object, what is absent being left out.
-/

namespace AccessFilter

/-- Field conditions in the order in which they were given. -/
abbrev Conditions := Fields Value

structure Rule where
  actions : List String := []
  subjects : List String := []
  conditions : Option Conditions := none
  denies : Bool := false
  reason : Option String := none

instance : Inhabited Rule := ⟨{}⟩

namespace Rule

def allow (action subject : String) : Rule := { actions := [action], subjects := [subject] }

def deny (action subject : String) : Rule := { allow action subject with denies := true }

def when (r : Rule) (field : String) (value : Value) : Rule :=
  { r with conditions := some (Fields.put field value (r.conditions.getD [])) }

def withReason (r : Rule) (reason : String) : Rule := { r with reason := some reason }

/-- The conditions of a rule, none being the same as an empty list of them. -/
def conditionList (r : Rule) : Conditions := r.conditions.getD []

def isUnconditioned (r : Rule) : Bool := r.conditionList.isEmpty

/-- The rule in words: verb, actions and subjects. -/
def display (r : Rule) : String :=
  (if r.denies then "cannot " else "can ") ++ "|".intercalate r.actions ++ " " ++
    "|".intercalate r.subjects

/-- The rule as an object: actions and subjects always, the rest when present. -/
def toValue (r : Rule) : Value :=
  .object <|
    [("action", .array (r.actions.map .string)), ("subject", .array (r.subjects.map .string))] ++
    (match r.conditions with
      | some fs => [("conditions", .object fs)]
      | none => []) ++
    (if r.denies then [("inverted", .bool true)] else []) ++
    (match r.reason with
      | some s => [("reason", .string s)]
      | none => [])

def json (r : Rule) : String := r.toValue.json

/-- The same conditions, whatever their order. -/
def sameConditions : Option Conditions → Option Conditions → Bool
  | none, none => true
  | some a, some b => Value.same (.object a) (.object b)
  | _, _ => false

def same (r s : Rule) : Bool :=
  r.actions == s.actions && r.subjects == s.subjects && sameConditions r.conditions s.conditions &&
    r.denies == s.denies && r.reason == s.reason

end Rule

end AccessFilter
