import AccessFilter.Cli.Report
import AccessFilter.Proofs.Filter.Clause
import AccessFilter.Proofs.Operator.Builtin

/-!
# More columns and more operators

A compilation looks up the fields and the symbols that occur in its rules and nothing else. So a
schema that knows more fields, or a registry that knows more operators, leaves every filter as it is;
it can only make a filter out of a fault.

* `Schema.Extends`, `Registry.Extends`   what was known stays known, as the same column or operator;
* `extends_withComparisons`   the comparisons extend a registry that knows none of their symbols;
* `Rule.filter_of_extends`    the filter of a rule stays the same;
* `compile_of_extends`        so does the filter of a rule list.
-/

namespace AccessFilter

/-- Every field of the first schema has the same column in the second. -/
def Schema.Extends (schema schema' : Schema) : Prop :=
  ∀ field column, schema field = some column → schema' field = some column

namespace Registry

/-- Every operator of the first registry has the same symbol in the second. -/
def Extends (ops ops' : Registry) : Prop :=
  ∀ symbol op, ops.resolve? symbol = some op → ops'.resolve? symbol = some op

theorem Extends.refl (ops : Registry) : ops.Extends ops := fun _ _ h => h

theorem Extends.insert {ops ops' : Registry} (h : ops.Extends ops') {symbol : String}
    (unknown : ops.resolve? symbol = none) (op : Operator) :
    ops.Extends (ops'.insert symbol op) := by
  intro other o ho
  have hne : other ≠ symbol := by
    rintro rfl
    rw [unknown] at ho
    cases ho
  rw [resolve?_insert_of_ne ops' symbol other op hne]
  exact h other o ho

def comparisonKeys : List String := ["$ne", "$gt", "$gte", "$lt", "$lte", "$nin"]

theorem extends_withComparisons (ops : Registry)
    (unknown : ∀ symbol ∈ comparisonKeys, ops.resolve? symbol = none) :
    ops.Extends ops.withComparisons :=
  ((((((Extends.refl ops).insert (unknown "$ne" (by decide)) _).insert
    (unknown "$gt" (by decide)) _).insert (unknown "$gte" (by decide)) _).insert
      (unknown "$lt" (by decide)) _).insert (unknown "$lte" (by decide)) _).insert
        (unknown "$nin" (by decide)) _

theorem standard_extends_withComparisons : standard.Extends standard.withComparisons :=
  extends_withComparisons standard (by decide)

end Registry

/-! ## filters stay as they are -/

/-- A traversal that succeeds does so with any steps that succeed where its own do. -/
theorem mapM_eq_ok_of_imp {ε α β : Type} {f g : α → Except ε β} {l : List α} {bs : List β}
    (himp : ∀ a b, f a = .ok b → g a = .ok b) (h : l.mapM f = .ok bs) : l.mapM g = .ok bs := by
  induction l generalizing bs with
  | nil => exact h
  | cons a l ih =>
    rw [List.mapM_cons, bind_eq_ok_iff] at h
    obtain ⟨b, hb, h⟩ := h
    obtain ⟨cs, hcs, hbs⟩ := (bind_eq_ok_iff _ _ _).mp h
    cases hbs
    rw [mapM_cons_ok g a b l (himp a b hb), ih hcs]
    rfl

section
variable {schema schema' : Schema} {ops ops' : Registry} (hschema : schema.Extends schema')
  (hops : ops.Extends ops')
include hschema hops

theorem Clause.build_of_extends (c : Clause) (p : Predicate) (h : c.build schema ops = .ok p) :
    c.build schema' ops' = .ok p := by
  cases c with
  | bare field =>
    -- an operator object without entries is a fault under every schema
    rw [build] at h
    cases hs : schema field <;> rw [hs] at h <;> cases h
  | apply field symbol operand =>
    rw [build] at h
    cases hs : schema field with
    | none =>
      rw [hs] at h
      cases h
    | some column =>
      rw [hs] at h
      obtain ⟨op, ho, ha⟩ := (bind_eq_ok_iff _ _ _).mp h
      obtain ⟨form, known⟩ := (resolveOperator_ok_iff ops symbol op).mp ho
      have ho' := (resolveOperator_ok_iff ops' symbol op).mpr ⟨form, hops symbol op known⟩
      rw [build, hschema field column hs]
      exact (bind_eq_ok_iff _ _ _).mpr ⟨op, ho', ha⟩

theorem Rule.filter_of_extends (r : Rule) (p : Predicate) (h : r.filter schema ops = .ok p) :
    r.filter schema' ops' = .ok p := by
  obtain ⟨ps, hps, rfl⟩ := (map_eq_ok_iff _ _ _).mp h
  have hps' := mapM_eq_ok_of_imp (Clause.build_of_extends hschema hops) hps
  exact (map_eq_ok_iff _ _ _).mpr ⟨ps, hps', rfl⟩

end

/-- **Extending the schema or the registry never changes a filter.** A rule list that compiles does
so, to the same predicate, under every schema and registry that keep what is known. So schemas with
the same look-up, of whatever kind, give the same filters and the same faults, and what compiles with
the standard operators compiles to the same filter under the setting that adds the comparisons. -/
theorem compile_of_extends :
    (∀ (schema schema' : Schema) (ops ops' : Registry), schema.Extends schema' → ops.Extends ops' →
      ∀ (rules : List Rule) (p : Predicate), (compile schema ops rules).result = .ok p →
        (compile schema' ops' rules).result = .ok p) ∧
    (∀ schema schema' : Schema, (∀ field, schema field = schema' field) →
      ∀ (ops : Registry) (rules : List Rule), compile schema ops rules = compile schema' ops rules) ∧
    ∀ (s : Settings) (schema : Schema) (rules : List Rule) (p : Predicate),
      ((Adapter.standard schema).filterRules rules).result = .ok p →
        ((s.adapter schema).filterRules rules).result = .ok p := by
  have extended : ∀ (schema schema' : Schema) (ops ops' : Registry), schema.Extends schema' →
      ops.Extends ops' → ∀ (rules : List Rule) (p : Predicate),
        (compile schema ops rules).result = .ok p →
          (compile schema' ops' rules).result = .ok p := by
    intro schema schema' ops ops' hschema hops rules p h
    obtain ⟨allow, deny, ha, hd, hp⟩ := (compile_eq_ok_iff schema ops rules p).mp h
    have hfilter := Rule.filter_of_extends hschema hops
    exact (compile_eq_ok_iff schema' ops' rules p).mpr
      ⟨allow, deny, mapM_eq_ok_of_imp hfilter ha, mapM_eq_ok_of_imp hfilter hd, hp⟩
  refine ⟨extended, ?_, ?_⟩
  · intro schema schema' h ops rules
    rw [funext h]
  · intro s schema rules p h
    cases hc : s.comparisons with
    | false =>
      rw [Settings.adapter, hc]
      exact h
    | true =>
      have hadapter : s.adapter schema = ⟨schema, Registry.standard.withComparisons⟩ := by
        rw [Settings.adapter, hc, if_pos rfl, Adapter.withOperators,
          Registry.standard_overlay_comparisons]
      rw [hadapter]
      exact extended schema schema _ _ (fun _ _ hf => hf) Registry.standard_extends_withComparisons
        rules p h

/-- A map with one field, a table with the same field and one more, and the same table without the
other field. The comparisons are there without being used. -/
theorem compile_of_extends_table :
    let map : ColumnMap := [("owner", ⟨"sites", "owner_id"⟩)]
    let narrow := (TableSchema.empty "sites").withColumn "owner" "owner_id"
    let wide := narrow.withColumn "views" "views"
    let rules : List Rule := [(Rule.allow "read" "Site").when "owner" (.string "u1"),
      (Rule.deny "read" "Site").when "owner" (.object [("$in", .array [.null])])]
    let p : Predicate := .and [.compare ⟨"sites", "owner_id"⟩ .eq (.string "u1"),
      .not (.inList ⟨"sites", "owner_id"⟩ [.null])]
    let s : Settings := ⟨"policies", none, .numbered, true⟩
    Schema.Extends map.lookup wide.lookup ∧
      Registry.standard.Extends Registry.standard.withComparisons ∧
      (compile map.lookup .standard rules).result = .ok p ∧
      (compile wide.lookup Registry.standard.withComparisons rules).result = .ok p ∧
      compile map.lookup .standard rules = compile narrow.lookup .standard rules ∧
      ((s.adapter narrow.lookup).filterRules rules).result = .ok p := by
  intro map narrow wide rules p s
  have hsame : ∀ field, map.lookup field = narrow.lookup field := fun _ => rfl
  have hwide : Schema.Extends map.lookup wide.lookup := by
    intro field column h
    by_cases hf : field = "owner"
    · subst hf
      exact h
    · have hnone : map.lookup field = none := if_neg (Ne.symm hf)
      rw [hnone] at h
      cases h
  have hops := Registry.standard_extends_withComparisons
  have hp : (compile map.lookup .standard rules).result = .ok p := rfl
  exact ⟨hwide, hops, hp, compile_of_extends.1 _ _ _ _ hwide hops rules p hp,
    compile_of_extends.2.1 _ _ hsame _ rules, compile_of_extends.2.2 s narrow.lookup rules p hp⟩

end AccessFilter
