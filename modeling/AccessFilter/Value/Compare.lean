import AccessFilter.Value.Basic

/-!
# Three-valued comparison of values

* `Truth`             true, false or unknown (`none`);
* `Value.equal`       unknown when a side is null or the kinds differ;
* `Value.order`       known for two numbers, two strings or two booleans only;
* `Comparison`        the six comparison operators, with their SQL spelling;
* `Comparison.test`   their truth on two values.
-/

namespace AccessFilter

/-- Truth of a test on data that may be missing; `none` is unknown. -/
abbrev Truth := Option Bool

namespace Truth

def not (t : Truth) : Truth := t.map fun b => !b

/-- Three-valued conjunction: false wins, then unknown. -/
def and : Truth → Truth → Truth
  | some false, _ => some false
  | some true, t => t
  | none, some false => some false
  | none, _ => none

/-- Three-valued disjunction: true wins, then unknown. -/
def or : Truth → Truth → Truth
  | some true, _ => some true
  | some false, t => t
  | none, some true => some true
  | none, _ => none

theorem none_and_and (t : Truth) : and none (and none t) = and none t := by
  rcases t with _ | _ | _ <;> rfl

theorem none_or_or (t : Truth) : or none (or none t) = or none t := by
  rcases t with _ | _ | _ <;> rfl

end Truth

namespace Value

def isNull : Value → Bool
  | .null => true
  | _ => false

/-- Equality test. Numbers compare by value; containers as a whole. -/
def equal : Value → Value → Truth
  | .number a, .number b => some (a.order b == .eq)
  | .string a, .string b => some (a == b)
  | .bool a, .bool b => some (a == b)
  | .array a, .array b => some (Value.same (.array a) (.array b))
  | .object a, .object b => some (Value.same (.object a) (.object b))
  | _, _ => none

/-- Order of two numbers, two strings (by code point) or two booleans (false first). -/
def order : Value → Value → Option Ordering
  | .number a, .number b => some (a.order b)
  | .string a, .string b => some (compare a b)
  | .bool a, .bool b => some (compare a b)
  | _, _ => none

end Value

/-! ## the six comparisons -/

inductive Comparison where
  | eq
  | ne
  | gt
  | ge
  | lt
  | le
deriving DecidableEq

namespace Comparison

def sql : Comparison → String
  | .eq => "="
  | .ne => "<>"
  | .gt => ">"
  | .ge => ">="
  | .lt => "<"
  | .le => "<="

/-- Truth of `left op right`. -/
def test (op : Comparison) (left right : Value) : Truth :=
  match op with
  | .eq => left.equal right
  | .ne => (left.equal right).not
  | .gt => (left.order right).map (·.isGT)
  | .ge => (left.order right).map (·.isGE)
  | .lt => (left.order right).map (·.isLT)
  | .le => (left.order right).map (·.isLE)

end Comparison

end AccessFilter
