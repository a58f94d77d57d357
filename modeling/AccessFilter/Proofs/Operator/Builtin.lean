import AccessFilter.Operator.Registry

/-!
# The built-in operators

* `Operator.Builtin`       the built-in operators by symbol;
* `Registry.AllBuiltin`    a registry with built-in operators only, as the two standard ones are;
* `standard_overlay_comparisons`   the comparisons over the standard operators, in either way of
                           putting them there.
-/

namespace AccessFilter

/-- Which symbol a built-in operator has; of the comparisons the two that single out null have one
symbol each. -/
inductive Operator.Builtin : String → Operator → Prop
  | equal : Builtin "$eq" .equals
  | unequal : Builtin "$ne" (.comparing .ne)
  | ordering (symbol : String) (op : Comparison) (order : op ≠ .eq ∧ op ≠ .ne) :
      Builtin symbol (.comparing op)
  | member : Builtin "$in" .oneOf
  | noMember : Builtin "$nin" .notOneOf

namespace Registry

/-- A registry with built-in operators only, under their symbols. -/
def AllBuiltin (r : Registry) : Prop :=
  ∀ symbol op, r.resolve? symbol = some op → Operator.Builtin symbol op

theorem allBuiltin_empty : empty.AllBuiltin := nofun

theorem AllBuiltin.insert {r : Registry} (h : r.AllBuiltin) {symbol : String} {op : Operator}
    (hop : Operator.Builtin symbol op) : (r.insert symbol op).AllBuiltin := by
  intro other o ho
  by_cases hs : other = symbol
  · subst hs
    rw [resolve?_insert_self] at ho
    exact Option.some.inj ho ▸ hop
  · rw [resolve?_insert_of_ne r symbol other op hs] at ho
    exact h other o ho

theorem allBuiltin_standard : standard.AllBuiltin :=
  (allBuiltin_empty.insert .equal).insert .member

theorem AllBuiltin.withComparisons {r : Registry} (h : r.AllBuiltin) :
    r.withComparisons.AllBuiltin :=
  (((((h.insert .unequal).insert (.ordering _ .gt (by decide))).insert
    (.ordering _ .ge (by decide))).insert (.ordering _ .lt (by decide))).insert
      (.ordering _ .le (by decide))).insert .noMember

theorem standard_overlay_comparisons :
    standard.overlay empty.withComparisons = standard.withComparisons := rfl

end Registry

end AccessFilter
