import AccessFilter.Proofs.Filter.Clause

/-!
# What a compilation looks at

Of a rule it looks at the conditions and at whether the rule denies, and rules without conditions it
drops. The allow rules and the deny rules are gathered apart, so how they are mixed does not show.

* `conditionMaps`              the conditions of the rules that have some, in order;
* `mapM_filter_conditioned`    the filters of a group come from its condition maps;
* `compile_eq_of_conditionMaps`   so does the outcome of a compilation, filter or fault.
-/

namespace AccessFilter

/-- The conditions of the rules that have some, in order. -/
def conditionMaps (rules : List Rule) : List Conditions :=
  (conditioned rules).map Rule.conditionList

theorem conditionMaps_append (rules rules' : List Rule) :
    conditionMaps (rules ++ rules') = conditionMaps rules ++ conditionMaps rules' := by
  rw [conditionMaps, conditioned, List.filter_append, List.map_append]
  rfl

theorem conditionMaps_of_unconditioned {r : Rule} (h : r.isUnconditioned = true) :
    conditionMaps [r] = [] := by
  rw [conditionMaps, conditioned, List.filter_cons_of_neg (by simp [h])]
  rfl

/-- A change of rules that keeps the conditions of each keeps the condition maps. -/
theorem conditionMaps_map {f : Rule → Rule} {rules : List Rule}
    (keeps : ∀ r ∈ rules, (f r).conditions = r.conditions) :
    conditionMaps (rules.map f) = conditionMaps rules := by
  have hlist : ∀ r ∈ rules, (f r).conditionList = r.conditionList := by
    intro r hr
    rw [Rule.conditionList, keeps r hr, Rule.conditionList]
  have hfilter : rules.filter ((fun r => !r.isUnconditioned) ∘ f)
      = rules.filter fun r => !r.isUnconditioned := by
    refine List.filter_congr fun r hr => ?_
    show (!(f r).isUnconditioned) = !r.isUnconditioned
    rw [Rule.isUnconditioned, hlist r hr, Rule.isUnconditioned]
  rw [conditionMaps, conditioned, List.filter_map, List.map_map, hfilter]
  exact List.map_congr_left fun r hr => hlist r (List.mem_filter.mp hr).1

/-! ## each kind of rule apart -/

/-- A change of rules that keeps the kind of each can be made before or after they are parted. -/
theorem filter_map_of_keeps {f : Rule → Rule} (p : Bool → Bool) {rules : List Rule}
    (keeps : ∀ r ∈ rules, (f r).denies = r.denies) :
    (rules.map f).filter (fun r => p r.denies) = (rules.filter fun r => p r.denies).map f := by
  rw [List.filter_map]
  congr 1
  refine List.filter_congr fun r hr => ?_
  show p (f r).denies = p r.denies
  rw [keeps r hr]

section
variable (schema : Schema) (ops : Registry)

/-- The filters of a group come from its condition maps. -/
theorem mapM_filter_conditioned (rules : List Rule) :
    (conditioned rules).mapM (Rule.filter schema ops)
      = (conditionMaps rules).mapM fun cs =>
          (cs.clauses.mapM (Clause.build schema ops)).map Predicate.conjunction := by
  rw [conditionMaps, List.mapM_map]
  rfl

/-- **Only conditions count.** Two rule lists whose allow rules have the same conditions in order, and
whose deny rules have, compile to the same filter or fail with the same fault. So the way in which
allow and deny rules are mixed does not matter, nor does a rule without conditions anywhere, nor does
anything else in a rule. -/
theorem compile_eq_of_conditionMaps :
    (∀ rules rules' : List Rule,
      conditionMaps (allowing rules) = conditionMaps (allowing rules') →
      conditionMaps (denying rules) = conditionMaps (denying rules') →
        (compile schema ops rules).result = (compile schema ops rules').result) ∧
    (∀ rules rules' : List Rule, allowing rules = allowing rules' → denying rules = denying rules' →
        (compile schema ops rules).result = (compile schema ops rules').result) ∧
    (∀ (before : List Rule) (r : Rule) (after : List Rule), r.isUnconditioned = true →
        (compile schema ops (before ++ r :: after)).result
          = (compile schema ops (before ++ after)).result) ∧
    ∀ (f : Rule → Rule) (rules : List Rule),
      (∀ r ∈ rules, (f r).conditions = r.conditions ∧ (f r).denies = r.denies) →
        (compile schema ops (rules.map f)).result = (compile schema ops rules).result := by
  have main : ∀ rules rules' : List Rule,
      conditionMaps (allowing rules) = conditionMaps (allowing rules') →
      conditionMaps (denying rules) = conditionMaps (denying rules') →
        (compile schema ops rules).result = (compile schema ops rules').result := by
    intro rules rules' hallow hdeny
    rw [compile_result, compile_result, mapM_filter_conditioned, mapM_filter_conditioned,
      mapM_filter_conditioned, mapM_filter_conditioned, hallow, hdeny]
  refine ⟨main, ?_, ?_, ?_⟩
  · intro rules rules' hallow hdeny
    exact main rules rules' (by rw [hallow]) (by rw [hdeny])
  · intro before r after hr
    have dropped : ∀ p : Rule → Bool,
        conditionMaps ((before ++ r :: after).filter p)
          = conditionMaps ((before ++ after).filter p) := by
      intro p
      rw [List.filter_append, List.filter_append, conditionMaps_append, conditionMaps_append]
      cases hp : p r with
      | false => rw [List.filter_cons_of_neg (by simp [hp])]
      | true =>
        rw [List.filter_cons_of_pos hp, ← List.singleton_append, conditionMaps_append,
          conditionMaps_of_unconditioned hr, List.nil_append]
    exact main _ _ (dropped _) (dropped _)
  · intro f rules keeps
    have kept : ∀ p : Bool → Bool,
        conditionMaps ((rules.map f).filter fun r => p r.denies)
          = conditionMaps (rules.filter fun r => p r.denies) := by
      intro p
      rw [filter_map_of_keeps p fun r hr => (keeps r hr).2]
      exact conditionMaps_map fun r hr => (keeps r (List.mem_filter.mp hr).1).1
    exact main _ _ (kept fun b => !b) (kept fun b => b)

/-- The second list mixes the rules differently, for another request, between rules without
conditions. The condition of the deny rule names an unknown column, and both lists fail with that. -/
theorem compile_eq_of_conditionMaps_shuffled :
    let schema : Schema := fun field => if field = "owner" then some ⟨"sites", field⟩ else none
    let owner : Conditions := [("owner", .string "u1")]
    let secret : Conditions := [("secret", .bool true)]
    let rules : List Rule :=
      [⟨["read"], ["Site"], some owner, false, none⟩, ⟨["read"], ["Site"], some secret, true, none⟩]
    let rules' : List Rule :=
      [⟨["edit"], ["Page"], some secret, true, some "kept back"⟩, ⟨[], [], some [], true, none⟩,
        ⟨["manage"], ["all"], none, false, none⟩, ⟨[], [], some owner, false, none⟩]
    conditionMaps (allowing rules) = conditionMaps (allowing rules') ∧
      conditionMaps (denying rules) = conditionMaps (denying rules') ∧
      (compile schema .standard rules).result = (compile schema .standard rules').result ∧
      (compile schema .standard rules').result = .error (.unknownColumn "secret") := by
  intro schema owner secret rules rules'
  exact ⟨rfl, rfl, (compile_eq_of_conditionMaps schema .standard).1 rules rules' rfl rfl, rfl⟩

end

end AccessFilter
