import AccessFilter.Sql.Predicate

/-!
# Operators: what an entry of a condition may ask of a column

* `Operator`        builds a predicate from a column and an operand, or refuses the operand;
* `Operator.equals`, `oneOf`, `notOneOf`, `comparing`  the built-in operators;
* `isOperatorSymbol`  the form of an operator's name.
-/

namespace AccessFilter

inductive OperatorError where
  | invalidOperand (operator expected : String)
  | other (text : String)
deriving DecidableEq

def OperatorError.message : OperatorError → String
  | .invalidOperand operator expected => operator ++ " operator expects " ++ expected
  | .other text => text

/-- Builds a predicate from a column and an operand. -/
abbrev Operator := Column → Value → Except OperatorError Predicate

namespace Operator

def equals : Operator := fun column operand => .ok (.comparing column .eq operand)

def comparing (op : Comparison) : Operator := fun column operand =>
  .ok (.comparing column op operand)

/-- The items of an array; any other operand is refused. -/
def items (symbol : String) : Value → Except OperatorError (List Value)
  | .array vs => .ok vs
  | _ => .error (.invalidOperand symbol "an array value")

def oneOf : Operator := fun column operand =>
  (items "$in" operand).map fun vs => .oneOf column vs

def notOneOf : Operator := fun column operand =>
  (items "$nin" operand).map fun vs => .not (.oneOf column vs)

end Operator

/-- Whether a key has the form `$name`: the sentinel and at least one octet more. -/
def isOperatorSymbol (key : String) : Bool :=
  match key.toList with
  | '$' :: _ :: _ => true
  | _ => false

end AccessFilter
