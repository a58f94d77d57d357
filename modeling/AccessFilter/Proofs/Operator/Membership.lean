import AccessFilter.Operator.Registry
import AccessFilter.Proofs.Sql.Algebra

/-!
# Membership in a list

Membership is evaluated by a search that stops at the first equal value, and the empty list is a
constant. Both come to the same as the disjunction of all comparisons with `=`, where null is compared
like any other value and so leaves the answer open.

* `Operator.truth`          what the predicate of an operator says on a row;
* `member_eq_evaluateAny`   membership as a disjunction;
* `evaluate_oneOf`          the predicate of a list, the empty one among them;
* `truth_membership`        the two operators for membership, against each other and against equality.
-/

namespace AccessFilter

/-- What an operator's predicate says on a row, or its refusal. -/
def Operator.truth (op : Operator) (column : Column) (operand : Value) (row : Row) :
    Except OperatorError Truth :=
  (op column operand).map fun p => p.evaluate row

section
variable (column : Column) (row : Row)

def comparisons (vs : List Value) : List Predicate := vs.map fun v => .compare column .eq v

theorem member_eq_evaluateAny (vs : List Value) :
    Truth.member (row.cell column.name) vs
      = Predicate.evaluateAny row (comparisons column vs) := by
  induction vs with
  | nil => rfl
  | cons v vs ih =>
    show _ = Predicate.evaluateAny row (.compare column .eq v :: comparisons column vs)
    rw [Truth.member_cons, ih, Predicate.evaluateAny_cons, Predicate.evaluate]

/-- The empty list is a constant, and that is what a search through no value gives. -/
theorem evaluate_oneOf (vs : List Value) :
    (Predicate.oneOf column vs).evaluate row = (Predicate.or (comparisons column vs)).evaluate row := by
  rw [Predicate.evaluate_or, ← member_eq_evaluateAny]
  cases vs <;> rfl

theorem evaluate_comparisons_congr {vs ws : List Value} (same : ∀ v, v ∈ vs ↔ v ∈ ws) :
    (Predicate.or (comparisons column vs)).evaluate row
      = (Predicate.or (comparisons column ws)).evaluate row := by
  apply Predicate.evaluate_rearranged row
  apply Predicate.Rearranged.parts true
  intro p
  simp only [comparisons, List.mem_map, same]

theorem evaluate_comparisons_singleton (v : Value) :
    (Predicate.or (comparisons column [v])).evaluate row
      = Comparison.eq.test (row.cell column.name) v := by
  rw [Predicate.evaluate_or, ← member_eq_evaluateAny, Truth.member_cons]
  exact Truth.or_false _

/-- Only equality with null is not a comparison. -/
theorem comparing_of_ne_null (op : Comparison) {v : Value} (h : v ≠ .null) :
    Predicate.comparing column op v = .compare column op v := by
  unfold Predicate.comparing
  split
  · exact absurd rfl h
  · exact absurd rfl h
  · rfl

theorem test_null_right (op : Comparison) (cell : Value) : op.test cell .null = none := by
  cases op <;> cases cell <;> rfl

/-- A null in the list leaves open whether a value that is not found is in it. -/
theorem evaluate_comparisons_null {vs : List Value} (h : .null ∈ vs) :
    (Predicate.or (comparisons column vs)).evaluate row ≠ some false := by
  rw [Predicate.evaluate_or, Ne, Predicate.evaluateAny_eq_false_iff]
  intro hall
  have hnull := hall _ (List.mem_map_of_mem h)
  rw [Predicate.evaluate, test_null_right] at hnull
  cases hnull

end

namespace Operator

section
variable (column : Column) (row : Row)

theorem truth_oneOf (vs : List Value) :
    oneOf.truth column (.array vs) row
      = .ok ((Predicate.or (comparisons column vs)).evaluate row) :=
  congrArg Except.ok (evaluate_oneOf column row vs)

theorem truth_notOneOf (vs : List Value) :
    notOneOf.truth column (.array vs) row
      = .ok ((Predicate.or (comparisons column vs)).evaluate row).not :=
  congrArg (fun t => Except.ok (Truth.not t)) (evaluate_oneOf column row vs)

theorem items_of_ne_array (symbol : String) {operand : Value} (h : ∀ vs, operand ≠ .array vs) :
    items symbol operand = .error (.invalidOperand symbol "an array value") := by
  unfold items
  split
  · exact absurd rfl (h _)
  · rfl

/-- **Membership.** The predicate of `$in` says what the disjunction of all comparisons with `=` says,
so the order and the repetition of the values do not matter, and the predicate of `$nin` says the
opposite. In the empty list nothing is; to be in the list of one value that is not null is to equal it;
and nothing is known to be outside a list with a null. Both operators refuse all but arrays. -/
theorem truth_membership :
    (Registry.standard.resolve? "$eq" = some equals ∧ Registry.standard.resolve? "$in" = some oneOf ∧
      Registry.standard.withComparisons.resolve? "$eq" = some equals ∧
      Registry.standard.withComparisons.resolve? "$ne" = some (comparing .ne) ∧
      Registry.standard.withComparisons.resolve? "$in" = some oneOf ∧
      Registry.standard.withComparisons.resolve? "$nin" = some notOneOf) ∧
    (∀ vs, oneOf.truth column (.array vs) row
      = .ok ((Predicate.or (vs.map fun v => .compare column .eq v)).evaluate row)) ∧
    (∀ vs ws, (∀ v, v ∈ vs ↔ v ∈ ws) →
      oneOf.truth column (.array vs) row = oneOf.truth column (.array ws) row ∧
      notOneOf.truth column (.array vs) row = notOneOf.truth column (.array ws) row) ∧
    (∀ vs, notOneOf.truth column (.array vs) row
      = (oneOf.truth column (.array vs) row).map Truth.not) ∧
    (oneOf.truth column (.array []) row = .ok (some false) ∧
      notOneOf.truth column (.array []) row = .ok (some true)) ∧
    (∀ v, v ≠ .null →
      oneOf.truth column (.array [v]) row = equals.truth column v row ∧
      notOneOf.truth column (.array [v]) row = (comparing .ne).truth column v row) ∧
    (∀ vs, .null ∈ vs → ∃ p, notOneOf column (.array vs) = .ok p ∧ p.holds row = false) ∧
    ∀ operand, (∀ vs, operand ≠ .array vs) →
      oneOf column operand = .error (.invalidOperand "$in" "an array value") ∧
      notOneOf column operand = .error (.invalidOperand "$nin" "an array value") := by
  refine ⟨⟨rfl, rfl, rfl, rfl, rfl, rfl⟩, truth_oneOf column row, fun vs ws same => ?_, fun vs => ?_,
    ⟨rfl, rfl⟩, fun v hv => ?_, fun vs hnull => ?_, fun operand h => ?_⟩
  · rw [truth_oneOf, truth_oneOf, truth_notOneOf, truth_notOneOf,
      evaluate_comparisons_congr column row same]
    exact ⟨rfl, rfl⟩
  · rw [truth_oneOf, truth_notOneOf]
    rfl
  · rw [truth_oneOf, truth_notOneOf, evaluate_comparisons_singleton]
    unfold truth equals comparing
    rw [comparing_of_ne_null column .eq hv, comparing_of_ne_null column .ne hv]
    exact ⟨rfl, rfl⟩
  · refine ⟨_, rfl, ?_⟩
    have hnot := evaluate_comparisons_null column row hnull
    rw [← evaluate_oneOf] at hnot
    unfold Predicate.holds
    rw [beq_eq_false_iff_ne, Predicate.evaluate, Ne, Truth.not_eq_true_iff]
    exact hnot
  · unfold oneOf notOneOf
    rw [items_of_ne_array "$in" h, items_of_ne_array "$nin" h]
    exact ⟨rfl, rfl⟩

end

/-- A rank that is not found in a list with a null, in two orders and with a value repeated. -/
theorem truth_membership_repeated :
    let column : Column := ⟨"sites", "rank"⟩
    let row : Row := [("rank", .string "c")]
    let vs : List Value := [.string "a", .null, .string "b"]
    let ws : List Value := [.null, .string "b", .string "a", .string "b"]
    (∀ v, v ∈ vs ↔ v ∈ ws) ∧
      oneOf.truth column (.array vs) row = oneOf.truth column (.array ws) row ∧
      oneOf.truth column (.array ws) row = .ok none ∧
      .null ∈ vs ∧ (∃ p, notOneOf column (.array vs) = .ok p ∧ p.holds row = false) ∧
      Value.string "c" ≠ .null ∧
      notOneOf.truth column (.array [.string "c"]) row
        = (comparing .ne).truth column (.string "c") row ∧
      (comparing .ne).truth column (.string "c") row = .ok (some false) ∧
      (∀ us, Value.string "c" ≠ .array us) ∧
      oneOf column (.string "c") = .error (.invalidOperand "$in" "an array value") := by
  intro column row vs ws
  obtain ⟨-, -, hset, -, -, hone, hnull, hrefuse⟩ := truth_membership column row
  have same : ∀ v, v ∈ vs ↔ v ∈ ws := by
    intro v
    simp only [vs, ws, List.mem_cons, List.not_mem_nil]
    grind
  have mem : .null ∈ vs := by simp [vs]
  exact ⟨same, (hset vs ws same).1, rfl, mem, hnull vs mem, nofun, (hone (.string "c") nofun).2, rfl,
    nofun, (hrefuse (.string "c") nofun).1⟩

end Operator

end AccessFilter
