import AccessFilter.Proofs.Filter.Access

/-!
# Rules as a set

A filter asks of its rules only which ones there are. Neither their order nor how often each stands
in the list changes the truth of the filter on a row, unknown being one of the three truths, and
neither decides whether there is a filter at all. Only the fault that is reported may be another.

* `exists_compile_ok_iff`      a rule list compiles exactly when every conditioned rule does;
* `evaluateAny_group_congr`    the truth of a group of rules is given by which rules there are;
* `evaluate_compile_congr`     the same of whole rule lists.
-/

namespace AccessFilter

section
variable (schema : Schema) (ops : Registry)

/-! ## whether there is a filter -/

/-- A rule list compiles exactly when every rule with a condition does. -/
theorem exists_compile_ok_iff (rules : List Rule) :
    (∃ p, (compile schema ops rules).result = .ok p) ↔
      ∀ r ∈ rules, r.conditionList ≠ [] → ∃ p, r.filter schema ops = .ok p := by
  constructor
  · rintro ⟨p, h⟩ r hr hc
    obtain ⟨allow, deny, ha, hd, -⟩ := (compile_eq_ok_iff schema ops rules p).mp h
    cases hden : r.denies with
    | false =>
      have hmem : r ∈ allowing rules := (mem_allowing rules r).mpr ⟨hr, hden⟩
      exact (exists_mapM_ok_iff _ _).mp ⟨allow, ha⟩ r ((mem_conditioned _ r).mpr ⟨hmem, hc⟩)
    | true =>
      have hmem : r ∈ denying rules := (mem_denying rules r).mpr ⟨hr, hden⟩
      exact (exists_mapM_ok_iff _ _).mp ⟨deny, hd⟩ r ((mem_conditioned _ r).mpr ⟨hmem, hc⟩)
  · intro hall
    have group : ∀ part : List Rule, (∀ r ∈ part, r ∈ rules) →
        ∃ ps, (conditioned part).mapM (Rule.filter schema ops) = .ok ps := by
      intro part hpart
      refine (exists_mapM_ok_iff _ _).mpr fun r hr => ?_
      obtain ⟨hmem, hc⟩ := (mem_conditioned part r).mp hr
      exact hall r (hpart r hmem) hc
    obtain ⟨allow, ha⟩ := group (allowing rules) fun r hr => ((mem_allowing rules r).mp hr).1
    obtain ⟨deny, hd⟩ := group (denying rules) fun r hr => ((mem_denying rules r).mp hr).1
    exact ⟨_, (compile_eq_ok_iff schema ops rules _).mpr ⟨allow, deny, ha, hd, rfl⟩⟩

end

/-! ## the truth of the filter -/

section
variable {schema : Schema} {ops : Registry}

/-- Both truths of a group are said by its rules alone, so groups of the same rules have the same
truth, whatever the number and the order of their filters. -/
theorem evaluateAny_group_congr {rules rules' : List Rule} (same : ∀ r, r ∈ rules ↔ r ∈ rules')
    {ps qs : List Predicate} (hp : (conditioned rules).mapM (Rule.filter schema ops) = .ok ps)
    (hq : (conditioned rules').mapM (Rule.filter schema ops) = .ok qs) (row : Row) :
    Predicate.evaluateAny row ps = Predicate.evaluateAny row qs := by
  rw [Truth.eq_iff, evaluateAny_group_eq_true_iff hp, evaluateAny_group_eq_true_iff hq,
    evaluateAny_group_eq_false_iff hp, evaluateAny_group_eq_false_iff hq]
  simp only [same, and_self]

end

/-- **Order and repetition of rules do not matter.** Of two lists of the same rules, one compiles
exactly when the other does, and then their filters have the same truth on every row. -/
theorem evaluate_compile_congr (schema : Schema) (ops : Registry) (rules rules' : List Rule)
    (same : ∀ r, r ∈ rules ↔ r ∈ rules') :
    ((∃ p, (compile schema ops rules).result = .ok p) ↔
        ∃ q, (compile schema ops rules').result = .ok q) ∧
      ∀ p q, (compile schema ops rules).result = .ok p →
        (compile schema ops rules').result = .ok q → ∀ row, p.evaluate row = q.evaluate row := by
  constructor
  · rw [exists_compile_ok_iff, exists_compile_ok_iff]
    simp only [same]
  · intro p q hp hq row
    obtain ⟨allow, deny, ha, hd, rfl⟩ := (compile_eq_ok_iff schema ops rules p).mp hp
    obtain ⟨allow', deny', ha', hd', rfl⟩ := (compile_eq_ok_iff schema ops rules' q).mp hq
    have hallow := evaluateAny_group_congr
      (fun r => by rw [mem_allowing, mem_allowing, same]) ha ha' row
    have hdeny := evaluateAny_group_congr
      (fun r => by rw [mem_denying, mem_denying, same]) hd hd' row
    rw [evaluate_filterOf, evaluate_filterOf, hallow, hdeny]

/-- Two allow rules and a deny rule, then the same three in another order with one of them twice. The
filters have different shapes, and on the row, where the deny rule is unknown, both are unknown. -/
theorem evaluate_compile_congr_shuffled :
    let schema : Schema := fun field => some ⟨"sites", field⟩
    let owner := (Rule.allow "read" "Site").when "owner" (.string "u1")
    let pub := (Rule.allow "read" "Site").when "public" (.bool true)
    let archived := (Rule.deny "read" "Site").when "archived" (.bool true)
    let rules := [owner, pub, archived]
    let rules' := [archived, pub, archived, owner, pub]
    let row : Row := [("owner", .string "u1")]
    (∀ r, r ∈ rules ↔ r ∈ rules') ∧
      ∃ p q, (compile schema .standard rules).result = .ok p ∧
        (compile schema .standard rules').result = .ok q ∧
        p.evaluate row = q.evaluate row ∧ p.evaluate row = none := by
  intro schema owner pub archived rules rules' row
  have same : ∀ r, r ∈ rules ↔ r ∈ rules' := by
    intro r
    simp only [rules, rules', List.mem_cons, List.not_mem_nil]
    grind
  have h := evaluate_compile_congr schema .standard rules rules' same
  exact ⟨same, _, _, rfl, rfl, h.2 _ _ rfl rfl row, rfl⟩

end AccessFilter
