import AccessFilter.Proofs.Filter.Clause

/-!
# Which rows a compiled filter lets through

A row is visible when an allow rule is true on it and every deny rule is false on it, rules without
conditions not counting. A deny rule that is merely unknown on a row hides it.

* `Clause.Builds`             the predicate that the operator of a clause builds on its column;
* `Rule.TrueOn`, `Rule.FalseOn`   every clause of a rule is true on a row, some clause is false;
* `evaluate_filterOf`         the truth of a filter, from those of its allow and deny filters;
* `holds_compile_iff`         the access decision.
-/

namespace AccessFilter

section
variable (schema : Schema) (ops : Registry)

/-! ## what a clause says of a row -/

/-- The operator of the clause, applied to the column of its field and its operand, gives `p`. -/
def Clause.Builds : Clause → Predicate → Prop
  | .apply field symbol operand, p => ∃ column op,
      schema field = some column ∧ ops.resolve? symbol = some op ∧ op column operand = .ok p
  | .bare _, _ => False

/-- Every operator application of the rule is true on the row. -/
def Rule.TrueOn (row : Row) (r : Rule) : Prop :=
  ∀ c ∈ r.clauses, ∃ p, c.Builds schema ops p ∧ p.evaluate row = some true

/-- Some operator application of the rule is false on the row. -/
def Rule.FalseOn (row : Row) (r : Rule) : Prop :=
  ∃ c ∈ r.clauses, ∃ p, c.Builds schema ops p ∧ p.evaluate row = some false

theorem Clause.Builds.unique {c : Clause} {p q : Predicate} (hp : c.Builds schema ops p)
    (hq : c.Builds schema ops q) : p = q := by
  cases c with
  | bare field => exact hp.elim
  | apply field symbol operand =>
    obtain ⟨column, op, hc, ho, h⟩ := hp
    obtain ⟨column', op', hc', ho', h'⟩ := hq
    rw [hc] at hc'
    rw [ho] at ho'
    cases hc'
    cases ho'
    rw [h] at h'
    exact Except.ok.inj h'

theorem Clause.builds_of_build {c : Clause} {p : Predicate} (h : c.build schema ops = .ok p) :
    c.Builds schema ops p := by
  cases c with
  | bare field =>
    rw [build] at h
    cases hs : schema field <;> rw [hs] at h <;> cases h
  | apply field symbol operand =>
    rw [build] at h
    cases hs : schema field with
    | none => rw [hs] at h; cases h
    | some column =>
      rw [hs] at h
      cases hr : resolveOperator ops symbol with
      | error e => rw [hr] at h; cases h
      | ok op =>
        rw [hr] at h
        exact ⟨column, op, hs, ((resolveOperator_ok_iff ops symbol op).mp hr).2,
          (applyOperator_ok_iff field column op operand p).mp h⟩

/-! ## what the filter of a rule says of a row -/

variable {schema ops} {row : Row}

theorem evaluate_filter_eq_true_iff {r : Rule} {p : Predicate} (h : r.filter schema ops = .ok p) :
    p.evaluate row = some true ↔ r.TrueOn schema ops row := by
  obtain ⟨ps, hps, rfl⟩ := (map_eq_ok_iff _ _ _).mp h
  rw [Predicate.evaluate_conjunction, Predicate.evaluateAll_eq_true_iff]
  constructor
  · intro hall c hc
    obtain ⟨q, hq, hb⟩ := exists_of_mapM hps hc
    exact ⟨q, c.builds_of_build schema ops hb, hall q hq⟩
  · intro htrue q hq
    obtain ⟨c, hc, hb⟩ := (mem_of_mapM hps q).mp hq
    obtain ⟨q', hb', ht⟩ := htrue c hc
    rwa [(c.builds_of_build schema ops hb).unique schema ops hb']

theorem evaluate_filter_eq_false_iff {r : Rule} {p : Predicate}
    (h : r.filter schema ops = .ok p) :
    p.evaluate row = some false ↔ r.FalseOn schema ops row := by
  obtain ⟨ps, hps, rfl⟩ := (map_eq_ok_iff _ _ _).mp h
  rw [Predicate.evaluate_conjunction, Predicate.evaluateAll_eq_false_iff]
  constructor
  · rintro ⟨q, hq, hfalse⟩
    obtain ⟨c, hc, hb⟩ := (mem_of_mapM hps q).mp hq
    exact ⟨c, hc, q, c.builds_of_build schema ops hb, hfalse⟩
  · rintro ⟨c, hc, q, hb, hfalse⟩
    obtain ⟨q', hq', hb'⟩ := exists_of_mapM hps hc
    rw [hb.unique schema ops (c.builds_of_build schema ops hb')] at hfalse
    exact ⟨q', hq', hfalse⟩

theorem evaluateAny_group_eq_true_iff {rules : List Rule} {ps : List Predicate}
    (h : (conditioned rules).mapM (Rule.filter schema ops) = .ok ps) :
    Predicate.evaluateAny row ps = some true ↔
      ∃ r ∈ rules, r.conditionList ≠ [] ∧ r.TrueOn schema ops row := by
  rw [Predicate.evaluateAny_eq_true_iff]
  constructor
  · rintro ⟨p, hp, ht⟩
    obtain ⟨r, hr, hf⟩ := (mem_of_mapM h p).mp hp
    obtain ⟨hmem, hc⟩ := (mem_conditioned rules r).mp hr
    exact ⟨r, hmem, hc, (evaluate_filter_eq_true_iff hf).mp ht⟩
  · rintro ⟨r, hmem, hc, ht⟩
    obtain ⟨p, hp, hf⟩ := exists_of_mapM h ((mem_conditioned rules r).mpr ⟨hmem, hc⟩)
    exact ⟨p, hp, (evaluate_filter_eq_true_iff hf).mpr ht⟩

theorem evaluateAny_group_eq_false_iff {rules : List Rule} {ps : List Predicate}
    (h : (conditioned rules).mapM (Rule.filter schema ops) = .ok ps) :
    Predicate.evaluateAny row ps = some false ↔
      ∀ r ∈ rules, r.conditionList ≠ [] → r.FalseOn schema ops row := by
  rw [Predicate.evaluateAny_eq_false_iff]
  constructor
  · intro hall r hmem hc
    obtain ⟨p, hp, hf⟩ := exists_of_mapM h ((mem_conditioned rules r).mpr ⟨hmem, hc⟩)
    exact (evaluate_filter_eq_false_iff hf).mp (hall p hp)
  · intro hall p hp
    obtain ⟨r, hr, hf⟩ := (mem_of_mapM h p).mp hp
    obtain ⟨hmem, hc⟩ := (mem_conditioned rules r).mp hr
    exact (evaluate_filter_eq_false_iff hf).mpr (hall r hmem hc)

/-! ## the access decision -/

/-- The special shapes of a filter do not change its truth: no allow filter is the empty
disjunction, and no deny filter denies nothing. -/
theorem evaluate_filterOf (allow deny : List Predicate) :
    (filterOf allow deny).evaluate row
      = (Predicate.evaluateAny row allow).and (Predicate.evaluateAny row deny).not := by
  by_cases ha : allow = []
  · subst ha
    rw [Predicate.evaluateAny_nil]
    rfl
  · rw [filterOf, combine_or ha, ← Predicate.evaluate_disjunction row allow]
    by_cases hd : deny = []
    · subst hd
      rw [Predicate.evaluateAny_nil]
      exact (Truth.and_true _).symm
    · rw [combine_or hd, ← Predicate.evaluate_disjunction row deny]
      show Predicate.evaluateAll row _ = _
      rw [Predicate.evaluateAll_cons, Predicate.evaluateAll_cons, Predicate.evaluateAll_nil,
        Truth.and_true, Predicate.evaluate]

/-- **The access decision of a filter.** A row passes exactly when every operator application of
some conditioned allow rule is true on it and every conditioned deny rule has an operator
application that is false on it. -/
theorem holds_compile_iff (schema : Schema) (ops : Registry) (rules : List Rule) (p : Predicate)
    (row : Row) (h : (compile schema ops rules).result = .ok p) :
    p.holds row = true ↔
      (∃ r ∈ rules, r.denies = false ∧ r.conditionList ≠ [] ∧ r.TrueOn schema ops row) ∧
      (∀ r ∈ rules, r.denies = true → r.conditionList ≠ [] → r.FalseOn schema ops row) := by
  rw [compile_result, bind_eq_ok_iff] at h
  obtain ⟨allow, hallow, h⟩ := h
  obtain ⟨deny, hdeny, h⟩ := (bind_eq_ok_iff _ _ _).mp h
  cases h
  rw [Predicate.holds, beq_iff_eq, evaluate_filterOf, Truth.and_eq_true_iff, Truth.not_eq_true_iff,
    evaluateAny_group_eq_true_iff hallow, evaluateAny_group_eq_false_iff hdeny]
  simp only [mem_allowing, mem_denying, and_assoc, and_imp]

/-- The deny rule is unknown on a row without its columns: both its applications are. The filter
hides that row from its owner, and shows the one on which an application is false. -/
theorem holds_compile_iff_unknown_deny :
    let schema : Schema := fun field => some ⟨"sites", field⟩
    let rules : List Rule :=
      [(Rule.allow "read" "Site").when "owner" (.string "u1"), Rule.allow "read" "Site",
        ((Rule.deny "read" "Site").when "archived" (.bool true)).when "views"
          (.object [("$in", .array [.null])])]
    let p : Predicate :=
      .and [.compare ⟨"sites", "owner"⟩ .eq (.string "u1"),
        .not (.and [.compare ⟨"sites", "archived"⟩ .eq (.bool true),
          .inList ⟨"sites", "views"⟩ [.null]])]
    let row : Row := [("owner", .string "u1")]
    let live : Row := [("owner", .string "u1"), ("archived", .bool false)]
    let passes (row : Row) : Prop :=
      (∃ r ∈ rules, r.denies = false ∧ r.conditionList ≠ [] ∧ r.TrueOn schema .standard row) ∧
      (∀ r ∈ rules, r.denies = true → r.conditionList ≠ [] → r.FalseOn schema .standard row)
    (compile schema .standard rules).result = .ok p ∧
      p.holds row = false ∧ ¬ passes row ∧ p.holds live = true ∧ passes live := by
  intro schema rules p row live passes
  have h : (compile schema .standard rules).result = .ok p := rfl
  have hidden : p.holds row = false := rfl
  have shown : p.holds live = true := rfl
  refine ⟨h, hidden, fun hpasses => ?_, shown,
    (holds_compile_iff schema .standard rules p live h).mp shown⟩
  have hholds := (holds_compile_iff schema .standard rules p row h).mpr hpasses
  rw [hidden] at hholds
  cases hholds

end

end AccessFilter
