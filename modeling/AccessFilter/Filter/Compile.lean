import AccessFilter.Operator.Registry
import AccessFilter.Rule.Basic
import AccessFilter.Sql.Table

/-!
# Compiling rules into a filter

The filter of a rule list is `any(allow) AND NOT any(deny)`. Without a contributing allow rule it is
the constant false, so nothing is granted by default. A rule without conditions contributes nothing
and is only warned about. The first fault ends the compilation: allow rules come before deny rules.

* `CompileError`       the faults of a condition;
* `compileConditions`  the conjunction of the tests of one rule;
* `compileGroup`       the filters of the allow rules or of the deny rules;
* `compile`            the whole filter, with the warnings up to the first fault.
-/

namespace AccessFilter

inductive CompileError where
  | unknownColumn (field : String)
  | unsupportedOperator (symbol : String)
  | emptyOperatorObject (field : String)
  | operator (field : String) (cause : OperatorError)
deriving DecidableEq

def CompileError.message : CompileError → String
  | .unknownColumn field => "Unknown column: " ++ field
  | .unsupportedOperator symbol => "Unsupported operator: " ++ symbol
  | .emptyOperatorObject field => "Empty operator object for field: " ++ field
  | .operator field cause => "Invalid condition on '" ++ field ++ "': " ++ cause.message

inductive Warning where
  | unconditioned (rule : Rule)

def Warning.message : Warning → String
  | .unconditioned rule =>
    "skipping unconditioned rule; it contributes no filter | rule=" ++ rule.display

/-! ## conditions -/

/-- The test of one operator application. -/
def applyOperator (field : String) (column : Column) (op : Operator) (operand : Value) :
    Except CompileError Predicate :=
  match op column operand with
  | .ok p => .ok p
  | .error e => .error (.operator field e)

def resolveOperator (ops : Registry) (symbol : String) : Except CompileError Operator :=
  if isOperatorSymbol symbol then
    match ops.resolve? symbol with
    | some op => .ok op
    | none => .error (.unsupportedOperator symbol)
  else .error (.unsupportedOperator symbol)

/-- The tests of the entries of an operator object. -/
def compileEntries (ops : Registry) (field : String) (column : Column) :
    List (String × Value) → Except CompileError (List Predicate)
  | [] => .ok []
  | (symbol, operand) :: rest => do
    let op ← resolveOperator ops symbol
    let p ← applyOperator field column op operand
    return p :: (← compileEntries ops field column rest)

/-- The tests of one field: the entries of an operator object, or equality with a literal. -/
def compileField (schema : Schema) (ops : Registry) (field : String) (value : Value) :
    Except CompileError (List Predicate) :=
  match schema field with
  | none => .error (.unknownColumn field)
  | some column =>
    match value with
    | .object [] => .error (.emptyOperatorObject field)
    | .object entries => compileEntries ops field column entries
    | literal =>
      match ops.resolve? "$eq" with
      | none => .error (.unsupportedOperator "$eq")
      | some op => do return [← applyOperator field column op literal]

def compileFields (schema : Schema) (ops : Registry) :
    List (String × Value) → Except CompileError (List Predicate)
  | [] => .ok []
  | (field, value) :: rest => do
    let ps ← compileField schema ops field value
    return ps ++ (← compileFields schema ops rest)

/-- Several predicates together: none, the only one, or a group. -/
def combine (group : List Predicate → Predicate) : List Predicate → Option Predicate
  | [] => none
  | [p] => some p
  | ps => some (group ps)

/-- The conjunction of the tests of a rule; none for a rule without conditions. -/
def compileConditions (schema : Schema) (ops : Registry) (conditions : Conditions) :
    Except CompileError (Option Predicate) :=
  (compileFields schema ops conditions).map (combine .and)

/-! ## rules -/

/-- The filters of a group of rules, up to the first fault, with the warnings on the way. -/
def compileGroup (schema : Schema) (ops : Registry) :
    List Rule → List Warning × Except CompileError (List Predicate)
  | [] => ([], .ok [])
  | rule :: rest =>
    match compileConditions schema ops rule.conditionList with
    | .error e => ([], .error e)
    | .ok none =>
      let (warnings, result) := compileGroup schema ops rest
      (.unconditioned rule :: warnings, result)
    | .ok (some p) =>
      let (warnings, result) := compileGroup schema ops rest
      (warnings, result.map (p :: ·))

def filterOf (allow deny : List Predicate) : Predicate :=
  match combine .or allow with
  | none => .const false
  | some a =>
    match combine .or deny with
    | none => a
    | some d => .and [a, .not d]

/-- What a compilation gives: warnings in any case, and a filter or the first fault. -/
structure Compilation where
  warnings : List Warning
  result : Except CompileError Predicate

/-- Compile a rule list: first the allow rules, then the deny rules. -/
def compile (schema : Schema) (ops : Registry) (rules : List Rule) : Compilation :=
  let (allowWarnings, allow) := compileGroup schema ops (rules.filter fun r => !r.denies)
  match allow with
  | .error e => ⟨allowWarnings, .error e⟩
  | .ok allow =>
    let (denyWarnings, deny) := compileGroup schema ops (rules.filter fun r => r.denies)
    ⟨allowWarnings ++ denyWarnings, deny.map (filterOf allow)⟩

end AccessFilter
