import AccessFilter.Sql.Predicate

/-!
# Evaluating a predicate on a row

A row gives cells by column name; a missing cell counts as null. Evaluation is three-valued and
stops early: a conjunction at the first false part, a disjunction at the first true one. What is
unknown is carried along to the end.

* `Row.cell`              the value of a cell;
* `Predicate.evaluate`    the truth of a predicate on a row;
* `Predicate.holds`       whether a row passes, that is, whether the predicate is true on it;
* `Predicate.filterRows`  the rows that pass, in order;
* `evaluateAll_cons`, `evaluateAny_cons`, `Truth.member_cons`   one part or value more.
-/

namespace AccessFilter

/-- Cells by column name. -/
abbrev Row := Fields Value

/-- The value of a cell; a missing cell is null. -/
def Row.cell (row : Row) (name : String) : Value := (Fields.find? name row).getD .null

/-- Membership in what is left of a list: true at the first equal value. The truth so far is false, or
unknown after an unknown comparison. -/
def Truth.memberAfter (cell : Value) (sofar : Truth) : List Value → Truth
  | [] => sofar
  | v :: vs =>
    match Comparison.eq.test cell v with
    | some true => some true
    | none => memberAfter cell none vs
    | some false => memberAfter cell sofar vs

/-- Membership in a list. -/
def Truth.member (cell : Value) (vs : List Value) : Truth := memberAfter cell (some false) vs

/-- What is carried along weighs as much as an unknown comparison that comes first. -/
theorem Truth.memberAfter_none (cell : Value) (vs : List Value) :
    memberAfter cell none vs = Truth.or none (member cell vs) := by
  unfold member
  induction vs with
  | nil => rfl
  | cons v vs ih =>
    rw [memberAfter, memberAfter]
    cases Comparison.eq.test cell v with
    | none =>
      show memberAfter cell none vs = Truth.or none (memberAfter cell none vs)
      rw [ih, none_or_or]
    | some b =>
      cases b with
      | false => exact ih
      | true => rfl

theorem Truth.member_cons (cell v : Value) (vs : List Value) :
    member cell (v :: vs) = (Comparison.eq.test cell v).or (member cell vs) := by
  rw [member, memberAfter]
  cases Comparison.eq.test cell v with
  | none => exact memberAfter_none cell vs
  | some b => cases b <;> rfl

namespace Predicate

mutual

/-- The truth of a predicate on a row. -/
def evaluate (row : Row) : Predicate → Truth
  | .const b => some b
  | .compare c op v => op.test (row.cell c.name) v
  | .isNull c negated => some ((row.cell c.name).isNull != negated)
  | .inList c vs => Truth.member (row.cell c.name) vs
  | .and parts => evaluateAllAfter row (some true) parts
  | .or parts => evaluateAnyAfter row (some false) parts
  | .not inner => (evaluate row inner).not

/-- Conjunction of what is left of the parts: stops at the first false one. The truth so far is true,
or unknown after an unknown part. -/
def evaluateAllAfter (row : Row) (sofar : Truth) : List Predicate → Truth
  | [] => sofar
  | p :: ps =>
    match evaluate row p with
    | some false => some false
    | none => evaluateAllAfter row none ps
    | some true => evaluateAllAfter row sofar ps

/-- Disjunction of what is left of the parts: stops at the first true one. The truth so far is false,
or unknown after an unknown part. -/
def evaluateAnyAfter (row : Row) (sofar : Truth) : List Predicate → Truth
  | [] => sofar
  | p :: ps =>
    match evaluate row p with
    | some true => some true
    | none => evaluateAnyAfter row none ps
    | some false => evaluateAnyAfter row sofar ps

end

def evaluateAll (row : Row) (parts : List Predicate) : Truth := evaluateAllAfter row (some true) parts

def evaluateAny (row : Row) (parts : List Predicate) : Truth := evaluateAnyAfter row (some false) parts

/-- Whether a row passes: the predicate is true on it, not merely unknown. -/
def holds (p : Predicate) (row : Row) : Bool := p.evaluate row == some true

def filterRows (p : Predicate) (rows : List Row) : List Row := rows.filter p.holds

/-! ## one part more -/

section
variable (row : Row)

theorem evaluate_and (parts : List Predicate) :
    (Predicate.and parts).evaluate row = evaluateAll row parts := rfl

theorem evaluate_or (parts : List Predicate) :
    (Predicate.or parts).evaluate row = evaluateAny row parts := rfl

theorem evaluateAll_nil : evaluateAll row [] = some true := rfl

theorem evaluateAny_nil : evaluateAny row [] = some false := rfl

/-- What is carried along weighs as much as an unknown part that comes first. -/
theorem evaluateAllAfter_none (ps : List Predicate) :
    evaluateAllAfter row none ps = Truth.and none (evaluateAll row ps) := by
  unfold evaluateAll
  induction ps with
  | nil => rfl
  | cons p ps ih =>
    rw [evaluateAllAfter, evaluateAllAfter]
    cases evaluate row p with
    | none =>
      show evaluateAllAfter row none ps = Truth.and none (evaluateAllAfter row none ps)
      rw [ih, Truth.none_and_and]
    | some b =>
      cases b with
      | false => rfl
      | true => exact ih

theorem evaluateAnyAfter_none (ps : List Predicate) :
    evaluateAnyAfter row none ps = Truth.or none (evaluateAny row ps) := by
  unfold evaluateAny
  induction ps with
  | nil => rfl
  | cons p ps ih =>
    rw [evaluateAnyAfter, evaluateAnyAfter]
    cases evaluate row p with
    | none =>
      show evaluateAnyAfter row none ps = Truth.or none (evaluateAnyAfter row none ps)
      rw [ih, Truth.none_or_or]
    | some b =>
      cases b with
      | false => exact ih
      | true => rfl

theorem evaluateAll_cons (p : Predicate) (ps : List Predicate) :
    evaluateAll row (p :: ps) = (evaluate row p).and (evaluateAll row ps) := by
  rw [evaluateAll, evaluateAllAfter]
  cases evaluate row p with
  | none => exact evaluateAllAfter_none row ps
  | some b => cases b <;> rfl

theorem evaluateAny_cons (p : Predicate) (ps : List Predicate) :
    evaluateAny row (p :: ps) = (evaluate row p).or (evaluateAny row ps) := by
  rw [evaluateAny, evaluateAnyAfter]
  cases evaluate row p with
  | none => exact evaluateAnyAfter_none row ps
  | some b => cases b <;> rfl

end

end Predicate

end AccessFilter
