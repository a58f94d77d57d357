import AccessFilter.Filter.Compile
import AccessFilter.Proofs.Sql.Group
import AccessFilter.Proofs.Traversal

/-!
# What the conditions of a rule ask for, clause by clause

A literal is one clause, an operator object is one clause for each entry, and an operator object
without entries is a clause that nothing can satisfy. Compiling a rule list means building the
clauses one after the other; `compile_result` says how the built predicates are put together.

* `Clause`                   one thing a condition asks for;
* `Conditions.clauses`, `Rule.clauses`   the clauses of a rule, in order;
* `Clause.build`             the predicate of a clause, or its fault;
* `Rule.filter`              the conjunction of what the clauses of a rule build;
* `conditioned`              the rules that have a condition;
* `compile_result`           a compilation as two traversals, first of the allow rules.
-/

namespace AccessFilter

/-! ## clauses -/

/-- One thing a condition asks for: an operator applied to an operand, or nothing at all, which is
what an operator object without entries asks for. -/
inductive Clause where
  | apply (field symbol : String) (operand : Value)
  | bare (field : String)

def Clause.field : Clause → String
  | .apply field _ _ => field
  | .bare field => field

def clausesOf (field : String) : Value → List Clause
  | .object [] => [.bare field]
  | .object entries => entries.map fun e => .apply field e.1 e.2
  | literal => [.apply field "$eq" literal]

def Conditions.clauses (cs : Conditions) : List Clause := cs.flatMap fun c => clausesOf c.1 c.2

def Rule.clauses (r : Rule) : List Clause := r.conditionList.clauses

theorem clausesOf_ne_nil (field : String) (value : Value) : clausesOf field value ≠ [] := by
  rcases value with _ | _ | _ | _ | _ | (_ | ⟨e, es⟩) <;> simp [clausesOf]

theorem field_of_mem_clausesOf {field : String} {value : Value} {c : Clause}
    (h : c ∈ clausesOf field value) : c.field = field := by
  rcases value with _ | _ | _ | _ | _ | (_ | ⟨e, es⟩)
  case object.cons =>
    obtain ⟨e', _, rfl⟩ := List.mem_map.mp h
    rfl
  all_goals
    rw [List.mem_singleton.mp h]
    rfl

theorem Conditions.clauses_cons (field : String) (value : Value) (cs : Conditions) :
    Conditions.clauses ((field, value) :: cs) = clausesOf field value ++ Conditions.clauses cs :=
  List.flatMap_cons

theorem Conditions.clauses_eq_nil_iff (cs : Conditions) : cs.clauses = [] ↔ cs = [] := by
  cases cs with
  | nil => exact ⟨fun _ => rfl, fun _ => rfl⟩
  | cons c cs => simp [Conditions.clauses, clausesOf_ne_nil]

section
variable (schema : Schema) (ops : Registry)

/-- The predicate of a clause, or its fault. -/
def Clause.build : Clause → Except CompileError Predicate
  | .apply field symbol operand =>
    match schema field with
    | none => .error (.unknownColumn field)
    | some column => do
      let op ← resolveOperator ops symbol
      applyOperator field column op operand
  | .bare field =>
    match schema field with
    | none => .error (.unknownColumn field)
    | some _ => .error (.emptyOperatorObject field)

/-- The conjunction of what the clauses of a rule build. -/
def Rule.filter (r : Rule) : Except CompileError Predicate :=
  (r.clauses.mapM (Clause.build schema ops)).map Predicate.conjunction

/-! ## compiling is building the clauses in order -/

theorem compileEntries_eq (field : String) (column : Column) (h : schema field = some column)
    (entries : List (String × Value)) :
    compileEntries ops field column entries
      = (entries.map fun e => Clause.apply field e.1 e.2).mapM (Clause.build schema ops) := by
  induction entries with
  | nil => rfl
  | cons e rest ih =>
    obtain ⟨symbol, operand⟩ := e
    rw [compileEntries, ih, List.map_cons, List.mapM_cons, Clause.build, h]
    cases resolveOperator ops symbol <;> rfl

theorem resolveOperator_error_iff (symbol : String) (e : CompileError) :
    resolveOperator ops symbol = .error e ↔
      (isOperatorSymbol symbol = false ∨ ops.resolve? symbol = none)
        ∧ e = .unsupportedOperator symbol := by
  unfold resolveOperator
  cases isOperatorSymbol symbol with
  | false => simp [eq_comm]
  | true => cases ops.resolve? symbol <;> simp [eq_comm]

theorem resolveOperator_ok_iff (symbol : String) (op : Operator) :
    resolveOperator ops symbol = .ok op ↔
      isOperatorSymbol symbol = true ∧ ops.resolve? symbol = some op := by
  unfold resolveOperator
  cases isOperatorSymbol symbol with
  | false => simp
  | true => cases ops.resolve? symbol <;> simp

theorem applyOperator_ok_iff (field : String) (column : Column) (op : Operator) (operand : Value)
    (p : Predicate) :
    applyOperator field column op operand = .ok p ↔ op column operand = .ok p := by
  unfold applyOperator
  cases op column operand <;> simp

theorem applyOperator_error_iff (field : String) (column : Column) (op : Operator)
    (operand : Value) (e : CompileError) :
    applyOperator field column op operand = .error e ↔
      ∃ cause, op column operand = .error cause ∧ e = .operator field cause := by
  unfold applyOperator
  cases op column operand <;> simp [eq_comm]

theorem Clause.build_of_unknown (c : Clause) (h : schema c.field = none) :
    c.build schema ops = .error (.unknownColumn c.field) := by
  cases c with
  | apply field symbol operand =>
    have hf : schema field = none := h
    rw [build, hf, Clause.field]
  | bare field =>
    have hf : schema field = none := h
    rw [build, hf, Clause.field]

theorem compileField_eq (field : String) (value : Value) :
    compileField schema ops field value
      = (clausesOf field value).mapM (Clause.build schema ops) := by
  cases h : schema field with
  | none =>
    obtain ⟨c, cs, hc⟩ := List.exists_cons_of_ne_nil (clausesOf_ne_nil field value)
    have hf : c.field = field :=
      field_of_mem_clausesOf (hc ▸ List.mem_cons_self)
    have hb := c.build_of_unknown schema ops (hf ▸ h)
    rw [hc, mapM_cons_error _ _ _ _ hb, hf, compileField, h]
  | some column =>
    have literal : ∀ v, [Clause.apply field "$eq" v].mapM (Clause.build schema ops)
        = (ops.resolve? "$eq").elim (.error (.unsupportedOperator "$eq"))
          fun op => (applyOperator field column op v).bind fun p => .ok [p] := by
      intro v
      have hs : isOperatorSymbol "$eq" = true := by decide
      rw [List.mapM_cons, Clause.build, h, resolveOperator, if_pos hs]
      cases ops.resolve? "$eq" <;> rfl
    rcases value with _ | _ | _ | _ | _ | (_ | ⟨e, es⟩)
    case object.nil => rw [clausesOf, List.mapM_cons, Clause.build, compileField, h]; rfl
    case object.cons =>
      rw [compileField, h]
      exact compileEntries_eq schema ops field column h (e :: es)
    all_goals
      rw [compileField, h]
      refine Eq.trans ?_ (literal _).symm
      cases ops.resolve? "$eq" <;> rfl

theorem compileFields_eq (cs : Conditions) :
    compileFields schema ops cs = cs.clauses.mapM (Clause.build schema ops) := by
  induction cs with
  | nil => rfl
  | cons c rest ih =>
    obtain ⟨field, value⟩ := c
    rw [compileFields, compileField_eq, ih, Conditions.clauses_cons, List.mapM_append]

theorem combine_and {ps : List Predicate} (h : ps ≠ []) :
    combine .and ps = some (.conjunction ps) := by
  rcases ps with _ | ⟨p, _ | ⟨q, ps⟩⟩
  · exact absurd rfl h
  · rfl
  · rfl

theorem combine_or {ps : List Predicate} (h : ps ≠ []) :
    combine .or ps = some (.disjunction ps) := by
  rcases ps with _ | ⟨p, _ | ⟨q, ps⟩⟩
  · exact absurd rfl h
  · rfl
  · rfl

/-- A rule without conditions gives nothing, any other its filter or its first fault. -/
theorem compileConditions_eq (r : Rule) :
    compileConditions schema ops r.conditionList
      = if r.isUnconditioned then .ok none else (r.filter schema ops).map some := by
  rw [compileConditions, compileFields_eq, Rule.isUnconditioned, Rule.filter, Rule.clauses]
  by_cases h : r.conditionList = []
  · rw [h]
    rfl
  · rw [if_neg (by simpa using h)]
    cases hm : r.conditionList.clauses.mapM (Clause.build schema ops) with
    | error e => rfl
    | ok ps =>
      have hps : ps ≠ [] := by
        rintro rfl
        have hnil := (mapM_eq_ok_iff _ _ _).mp hm
        rw [List.map_nil, List.map_eq_nil_iff] at hnil
        exact h ((Conditions.clauses_eq_nil_iff _).mp hnil)
      simp only [Except.map, combine_and hps]

/-! ## rule lists -/

/-- The rules that have a condition, in order. -/
def conditioned (rules : List Rule) : List Rule := rules.filter fun r => !r.isUnconditioned

def allowing (rules : List Rule) : List Rule := rules.filter fun r => !r.denies

def denying (rules : List Rule) : List Rule := rules.filter fun r => r.denies

theorem mem_conditioned (rules : List Rule) (r : Rule) :
    r ∈ conditioned rules ↔ r ∈ rules ∧ r.conditionList ≠ [] := by
  simp [conditioned, Rule.isUnconditioned]

theorem mem_allowing (rules : List Rule) (r : Rule) :
    r ∈ allowing rules ↔ r ∈ rules ∧ r.denies = false := by
  simp [allowing]

theorem mem_denying (rules : List Rule) (r : Rule) :
    r ∈ denying rules ↔ r ∈ rules ∧ r.denies = true := by
  simp [denying]

theorem compileGroup_result (rules : List Rule) :
    (compileGroup schema ops rules).2 = (conditioned rules).mapM (Rule.filter schema ops) := by
  induction rules with
  | nil => rfl
  | cons r rest ih =>
    rw [compileGroup, compileConditions_eq, conditioned]
    cases hu : r.isUnconditioned with
    | true =>
      rw [List.filter_cons_of_neg (by simp [hu])]
      exact ih
    | false =>
      rw [List.filter_cons_of_pos (by simp [hu])]
      cases hf : r.filter schema ops with
      | error e => rw [mapM_cons_error _ _ _ _ hf]; rfl
      | ok p =>
        rw [mapM_cons_ok _ _ _ _ hf, ← conditioned, ← ih]
        rfl

/-- **A compilation as two traversals**: the conditioned allow rules are compiled in order, then the
conditioned deny rules, and their filters are put together. -/
theorem compile_result (rules : List Rule) :
    (compile schema ops rules).result = do
      let allow ← (conditioned (allowing rules)).mapM (Rule.filter schema ops)
      let deny ← (conditioned (denying rules)).mapM (Rule.filter schema ops)
      return filterOf allow deny := by
  rw [← compileGroup_result, ← compileGroup_result, compile, allowing, denying]
  rcases compileGroup schema ops (rules.filter fun r => !r.denies) with ⟨aw, ea | fa⟩
  · rfl
  · rcases compileGroup schema ops (rules.filter fun r => r.denies) with ⟨dw, ed | fd⟩ <;> rfl

theorem compile_eq_ok_iff (rules : List Rule) (p : Predicate) :
    (compile schema ops rules).result = .ok p ↔ ∃ allow deny,
      (conditioned (allowing rules)).mapM (Rule.filter schema ops) = .ok allow ∧
      (conditioned (denying rules)).mapM (Rule.filter schema ops) = .ok deny ∧
      filterOf allow deny = p := by
  rw [compile_result, bind_eq_ok_iff]
  refine exists_congr fun allow => ?_
  rw [bind_eq_ok_iff]
  constructor
  · rintro ⟨ha, deny, hd, h⟩
    exact ⟨deny, ha, hd, Except.ok.inj h⟩
  · rintro ⟨deny, ha, hd, rfl⟩
    exact ⟨ha, deny, hd, rfl⟩

end

end AccessFilter
