import AccessFilter.Sql.Evaluate

/-!
# Groups of predicates and their three-valued truth

* `Predicate.conjunction`, `disjunction`   several predicates as one: a constant, the only one, or a
                                           group;
* `evaluate_conjunction`, `evaluate_disjunction`   such a predicate has the truth of the group;
* `evaluateAll_eq_true_iff`, `evaluateAll_eq_false_iff`   a conjunction is true when every part is
                                           and false when some part is, whatever is unknown;
* `evaluateAny_eq_true_iff`, `evaluateAny_eq_false_iff`   the same with the two truths exchanged.
-/

namespace AccessFilter

namespace Truth

theorem and_eq_true_iff (s t : Truth) : s.and t = some true ↔ s = some true ∧ t = some true := by
  rcases s with _ | _ | _ <;> rcases t with _ | _ | _ <;> simp [Truth.and]

theorem and_eq_false_iff (s t : Truth) :
    s.and t = some false ↔ s = some false ∨ t = some false := by
  rcases s with _ | _ | _ <;> rcases t with _ | _ | _ <;> simp [Truth.and]

theorem or_eq_true_iff (s t : Truth) : s.or t = some true ↔ s = some true ∨ t = some true := by
  rcases s with _ | _ | _ <;> rcases t with _ | _ | _ <;> simp [Truth.or]

theorem or_eq_false_iff (s t : Truth) :
    s.or t = some false ↔ s = some false ∧ t = some false := by
  rcases s with _ | _ | _ <;> rcases t with _ | _ | _ <;> simp [Truth.or]

theorem not_eq_true_iff (t : Truth) : t.not = some true ↔ t = some false := by
  rcases t with _ | _ | _ <;> simp [Truth.not]

/-- A truth is given by when it is true and when it is false. -/
theorem eq_iff (s t : Truth) :
    s = t ↔ (s = some true ↔ t = some true) ∧ (s = some false ↔ t = some false) := by
  rcases s with _ | _ | _ <;> rcases t with _ | _ | _ <;> simp

theorem and_true (t : Truth) : t.and (some true) = t := by
  rcases t with _ | _ | _ <;> rfl

theorem or_false (t : Truth) : t.or (some false) = t := by
  rcases t with _ | _ | _ <;> rfl

end Truth

namespace Predicate

/-! ## several predicates as one -/

/-- All of several predicates: the constant true, the only one, or a group. -/
def conjunction : List Predicate → Predicate
  | [] => .const true
  | [p] => p
  | ps => .and ps

/-- Any of several predicates: the constant false, the only one, or a group. -/
def disjunction : List Predicate → Predicate
  | [] => .const false
  | [p] => p
  | ps => .or ps

variable (row : Row)

theorem evaluate_conjunction (ps : List Predicate) :
    (conjunction ps).evaluate row = evaluateAll row ps := by
  rcases ps with _ | ⟨p, _ | ⟨q, ps⟩⟩
  · rw [conjunction, evaluate, evaluateAll_nil]
  · rw [conjunction, evaluateAll_cons, evaluateAll_nil, Truth.and_true]
  · show (Predicate.and (p :: q :: ps)).evaluate row = _
    rw [evaluate_and]

theorem evaluate_disjunction (ps : List Predicate) :
    (disjunction ps).evaluate row = evaluateAny row ps := by
  rcases ps with _ | ⟨p, _ | ⟨q, ps⟩⟩
  · rw [disjunction, evaluate, evaluateAny_nil]
  · rw [disjunction, evaluateAny_cons, evaluateAny_nil, Truth.or_false]
  · show (Predicate.or (p :: q :: ps)).evaluate row = _
    rw [evaluate_or]

/-! ## when a group is true and when it is false -/

theorem evaluateAll_eq_true_iff (ps : List Predicate) :
    evaluateAll row ps = some true ↔ ∀ p ∈ ps, p.evaluate row = some true := by
  induction ps with
  | nil => simp [evaluateAll_nil]
  | cons p ps ih => rw [evaluateAll_cons, Truth.and_eq_true_iff, ih, List.forall_mem_cons]

theorem evaluateAll_eq_false_iff (ps : List Predicate) :
    evaluateAll row ps = some false ↔ ∃ p ∈ ps, p.evaluate row = some false := by
  induction ps with
  | nil => simp [evaluateAll_nil]
  | cons p ps ih =>
    rw [evaluateAll_cons, Truth.and_eq_false_iff, ih]
    simp only [List.mem_cons, exists_eq_or_imp]

theorem evaluateAny_eq_true_iff (ps : List Predicate) :
    evaluateAny row ps = some true ↔ ∃ p ∈ ps, p.evaluate row = some true := by
  induction ps with
  | nil => simp [evaluateAny_nil]
  | cons p ps ih =>
    rw [evaluateAny_cons, Truth.or_eq_true_iff, ih]
    simp only [List.mem_cons, exists_eq_or_imp]

theorem evaluateAny_eq_false_iff (ps : List Predicate) :
    evaluateAny row ps = some false ↔ ∀ p ∈ ps, p.evaluate row = some false := by
  induction ps with
  | nil => simp [evaluateAny_nil]
  | cons p ps ih => rw [evaluateAny_cons, Truth.or_eq_false_iff, ih, List.forall_mem_cons]

end Predicate

end AccessFilter
