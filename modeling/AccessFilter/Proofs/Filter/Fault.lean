import AccessFilter.Proofs.Filter.Clause

/-!
# When a compilation fails, and with which fault

* `Clause.Faulty`          the rule book of faults: which clause is bad, and how;
* `clausesInOrder`         the clauses of a rule list, those of the allow rules first;
* `compile_error_iff_first_fault`   a compilation fails exactly when a clause is bad, with the fault
                           of the first bad clause.
-/

namespace AccessFilter

/-! ## bad clauses -/

/-- A clause is bad for one of four reasons. The column comes before all else, then the form of the
operator object, then the operator, and last what the operator says of the operand. -/
inductive Clause.Faulty (schema : Schema) (ops : Registry) : Clause → CompileError → Prop
  | unknownColumn (c : Clause) (unresolved : schema c.field = none) :
      Faulty schema ops c (.unknownColumn c.field)
  | emptyObject (field : String) (column : Column) (resolved : schema field = some column) :
      Faulty schema ops (.bare field) (.emptyOperatorObject field)
  | unsupported (field symbol : String) (operand : Value) (column : Column)
      (resolved : schema field = some column)
      (unknown : isOperatorSymbol symbol = false ∨ ops.resolve? symbol = none) :
      Faulty schema ops (.apply field symbol operand) (.unsupportedOperator symbol)
  | refused (field symbol : String) (operand : Value) (column : Column) (op : Operator)
      (cause : OperatorError) (resolved : schema field = some column)
      (form : isOperatorSymbol symbol = true) (known : ops.resolve? symbol = some op)
      (refuses : op column operand = .error cause) :
      Faulty schema ops (.apply field symbol operand) (.operator field cause)

/-- The clauses of a rule list in the order in which they are compiled: allow rules before deny
rules. -/
def clausesInOrder (rules : List Rule) : List Clause :=
  (allowing rules ++ denying rules).flatMap Rule.clauses

theorem mem_clausesInOrder (rules : List Rule) (c : Clause) :
    c ∈ clausesInOrder rules ↔ ∃ r ∈ rules, c ∈ r.clauses := by
  simp only [clausesInOrder, allowing, denying, List.mem_flatMap, List.mem_append, List.mem_filter]
  constructor
  · rintro ⟨r, ⟨hr, _⟩ | ⟨hr, _⟩, hc⟩
    · exact ⟨r, hr, hc⟩
    · exact ⟨r, hr, hc⟩
  · rintro ⟨r, hr, hc⟩
    refine ⟨r, ?_, hc⟩
    cases hd : r.denies with
    | true => exact .inr ⟨hr, rfl⟩
    | false => exact .inl ⟨hr, rfl⟩

section
variable (schema : Schema) (ops : Registry)

theorem Clause.build_eq_error_iff (c : Clause) (e : CompileError) :
    c.build schema ops = .error e ↔ c.Faulty schema ops e := by
  constructor
  · intro h
    cases hs : schema c.field with
    | none =>
      rw [build_of_unknown schema ops c hs] at h
      cases h
      exact .unknownColumn c hs
    | some column =>
      cases c with
      | bare field =>
        have hf : schema field = some column := hs
        rw [build, hf] at h
        cases h
        exact .emptyObject field column hf
      | apply field symbol operand =>
        have hf : schema field = some column := hs
        rw [build, hf] at h
        cases ho : resolveOperator ops symbol with
        | error e' =>
          obtain ⟨hu, he⟩ := (resolveOperator_error_iff ops symbol e').mp ho
          rw [ho] at h
          cases h
          exact he ▸ .unsupported field symbol operand column hf hu
        | ok op =>
          obtain ⟨form, hk⟩ := (resolveOperator_ok_iff ops symbol op).mp ho
          rw [ho] at h
          obtain ⟨cause, hc, he⟩ := (applyOperator_error_iff field column op operand e).mp h
          exact he ▸ .refused field symbol operand column op cause hf form hk hc
  · intro h
    cases h with
    | unknownColumn _ unresolved => exact build_of_unknown schema ops c unresolved
    | emptyObject field column resolved => rw [build, resolved]
    | unsupported field symbol operand column resolved unknown =>
      rw [build, resolved, (resolveOperator_error_iff ops symbol _).mpr ⟨unknown, rfl⟩]
      rfl
    | refused field symbol operand column op cause resolved form known refuses =>
      rw [build, resolved, (resolveOperator_ok_iff ops symbol op).mpr ⟨form, known⟩]
      exact (applyOperator_error_iff field column op operand _).mpr ⟨cause, refuses, rfl⟩

/-! ## the first bad clause -/

def Clause.fault? (c : Clause) : Option CompileError := AccessFilter.fault? (c.build schema ops)

theorem Clause.fault?_eq_some_iff (c : Clause) (e : CompileError) :
    c.fault? schema ops = some e ↔ c.Faulty schema ops e := by
  rw [fault?, AccessFilter.fault?_eq_some_iff, build_eq_error_iff]

theorem fault?_filter (r : Rule) :
    fault? (r.filter schema ops) = r.clauses.findSome? (Clause.fault? schema ops) := by
  rw [Rule.filter, fault?_map, fault?_mapM]
  rfl

/-- Rules without conditions have no clauses, so they cannot hide or bring forward a fault. -/
theorem flatMap_clauses_conditioned (rules : List Rule) :
    (conditioned rules).flatMap Rule.clauses = rules.flatMap Rule.clauses := by
  induction rules with
  | nil => rfl
  | cons r rest ih =>
    rw [conditioned, List.flatMap_cons, ← ih]
    cases hu : r.isUnconditioned with
    | true =>
      have hc : r.clauses = [] :=
        (Conditions.clauses_eq_nil_iff _).mpr (List.isEmpty_iff.mp hu)
      rw [List.filter_cons_of_neg (by simp [hu]), hc]
      rfl
    | false =>
      rw [List.filter_cons_of_pos (by simp [hu]), List.flatMap_cons]
      rfl

theorem findSome?_flatMap {α β γ : Type} (g : α → List β) (f : β → Option γ) (l : List α) :
    (l.flatMap g).findSome? f = l.findSome? fun a => (g a).findSome? f := by
  induction l with
  | nil => rfl
  | cons a l ih =>
    rw [List.flatMap_cons, List.findSome?_append, List.findSome?_cons, ih]
    cases (g a).findSome? f <;> rfl

theorem fault?_group (rules : List Rule) :
    fault? ((conditioned rules).mapM (Rule.filter schema ops))
      = (rules.flatMap Rule.clauses).findSome? (Clause.fault? schema ops) := by
  have hf : (fun r => fault? (Rule.filter schema ops r))
      = fun r => r.clauses.findSome? (Clause.fault? schema ops) := by
    funext r
    exact fault?_filter schema ops r
  rw [fault?_mapM, hf, ← findSome?_flatMap, flatMap_clauses_conditioned]

/-- A compilation ends with the fault of the first bad clause. -/
theorem fault?_compile (rules : List Rule) :
    fault? (compile schema ops rules).result
      = (clausesInOrder rules).findSome? (Clause.fault? schema ops) := by
  rw [compile_result, clausesInOrder, List.flatMap_append, List.findSome?_append,
    ← fault?_group, ← fault?_group]
  cases (conditioned (allowing rules)).mapM (Rule.filter schema ops) with
  | error e => rfl
  | ok allow =>
    cases (conditioned (denying rules)).mapM (Rule.filter schema ops) <;> rfl

/-- **A compilation fails exactly when some clause of some rule is bad**, and its fault is that of
the first bad clause, the allow rules coming before the deny rules. -/
theorem compile_error_iff_first_fault (rules : List Rule) :
    ((∃ e, (compile schema ops rules).result = .error e) ↔
      ∃ r ∈ rules, ∃ c ∈ r.clauses, ∃ e, c.Faulty schema ops e) ∧
    ∀ e, (compile schema ops rules).result = .error e ↔
      ∃ before c after, clausesInOrder rules = before ++ c :: after ∧
        (∀ b ∈ before, ∀ e', ¬ b.Faulty schema ops e') ∧ c.Faulty schema ops e := by
  have first : ∀ e, (compile schema ops rules).result = .error e ↔
      ∃ before c after, clausesInOrder rules = before ++ c :: after ∧
        (∀ b ∈ before, ∀ e', ¬ b.Faulty schema ops e') ∧ c.Faulty schema ops e := by
    intro e
    rw [← fault?_eq_some_iff, fault?_compile, List.findSome?_eq_some_iff]
    constructor
    · rintro ⟨before, c, after, hl, hc, hb⟩
      refine ⟨before, c, after, hl, fun b hm e' hbad => ?_,
        (c.fault?_eq_some_iff schema ops e).mp hc⟩
      rw [← Clause.fault?_eq_some_iff, hb b hm] at hbad
      cases hbad
    · rintro ⟨before, c, after, hl, hb, hc⟩
      refine ⟨before, c, after, hl, (c.fault?_eq_some_iff schema ops e).mpr hc,
        fun b hm => Option.eq_none_iff_forall_ne_some.mpr fun e' hbad => ?_⟩
      exact hb b hm e' ((b.fault?_eq_some_iff schema ops e').mp hbad)
  refine ⟨?_, first⟩
  constructor
  · rintro ⟨e, he⟩
    obtain ⟨before, c, after, hl, _, hc⟩ := (first e).mp he
    have hm : c ∈ clausesInOrder rules := hl ▸ List.mem_append_right _ List.mem_cons_self
    obtain ⟨r, hr, hrc⟩ := (mem_clausesInOrder rules c).mp hm
    exact ⟨r, hr, c, hrc, e, hc⟩
  · rintro ⟨r, hr, c, hrc, e, hc⟩
    -- the error may be that of an earlier clause, so only the search is known to succeed
    have hm := (mem_clausesInOrder rules c).mpr ⟨r, hr, hrc⟩
    have hne : (clausesInOrder rules).findSome? (Clause.fault? schema ops) ≠ none := by
      rw [Ne, List.findSome?_eq_none_iff]
      intro hall
      rw [← Clause.fault?_eq_some_iff, hall c hm] at hc
      cases hc
    obtain ⟨e', he'⟩ := Option.ne_none_iff_exists'.mp hne
    rw [← fault?_compile, fault?_eq_some_iff] at he'
    exact ⟨e', he'⟩

end

end AccessFilter
