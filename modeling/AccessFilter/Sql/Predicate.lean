import AccessFilter.Sql.Column
import AccessFilter.Value.Compare

/-!
# Predicates over the columns of a table

* `Predicate`            a boolean expression with comparisons, null tests and lists as leaves;
* `Predicate.comparing`  the test `column op value`; equality with null becomes a null test;
* `Predicate.oneOf`      membership in a list; the empty list matches nothing;
* `Predicate.columns`    the columns that occur, in the order of their first occurrence.
-/

namespace AccessFilter

inductive Predicate where
  | const (b : Bool)
  | compare (column : Column) (op : Comparison) (value : Value)
  | isNull (column : Column) (negated : Bool)
  | inList (column : Column) (values : List Value)
  | and (parts : List Predicate)
  | or (parts : List Predicate)
  | not (inner : Predicate)

instance : Inhabited Predicate := ⟨.const false⟩

namespace Predicate

/-- `column op value`, where equality and inequality with null ask whether the cell is null. -/
def comparing (column : Column) (op : Comparison) (value : Value) : Predicate :=
  match op, value with
  | .eq, .null => .isNull column false
  | .ne, .null => .isNull column true
  | _, _ => .compare column op value

/-- `column IN values`; no value is in the empty list. -/
def oneOf (column : Column) (values : List Value) : Predicate :=
  if values.isEmpty then .const false else .inList column values

def isConst : Predicate → Bool
  | .const _ => true
  | _ => false

/-! ## the columns that occur -/

/-- A column at the end of a list, unless it is there already. -/
def addColumn (seen : List Column) (c : Column) : List Column :=
  if c ∈ seen then seen else seen ++ [c]

mutual

/-- The columns of a predicate after those already seen. -/
def columnsAfter (seen : List Column) : Predicate → List Column
  | .const _ => seen
  | .compare c _ _ => addColumn seen c
  | .isNull c _ => addColumn seen c
  | .inList c _ => addColumn seen c
  | .and parts => columnsAfterAll seen parts
  | .or parts => columnsAfterAll seen parts
  | .not inner => columnsAfter seen inner

def columnsAfterAll (seen : List Column) : List Predicate → List Column
  | [] => seen
  | p :: ps => columnsAfterAll (columnsAfter seen p) ps

end

/-- The columns that occur anywhere, each once, in the order of their first occurrence. -/
def columns (p : Predicate) : List Column := columnsAfter [] p

end Predicate

end AccessFilter
