import AccessFilter.Proofs.Filter.Fault
import Mathlib.Data.List.TakeWhile

/-!
# What a compilation warns about

The allow rules are compiled and then the deny rules, and a rule without conditions is warned about
when its turn comes. So the warnings are about the rules without conditions as far as the compilation
gets: all of them when it succeeds, and those before the first bad rule when it fails.

* `rulesInOrder`            the rules in the order in which they are compiled;
* `unconditioned`           the rules without conditions, in order;
* `warnings_compileGroup`   the warnings about a group, up to its first bad rule;
* `warnings_compile`        the warnings about both groups;
* `compile_warns`           the warnings of a compilation that succeeds, and of one that fails.
-/

namespace AccessFilter

/-- The rules in the order in which they are compiled: allow rules before deny rules. -/
def rulesInOrder (rules : List Rule) : List Rule := allowing rules ++ denying rules

def unconditioned (rules : List Rule) : List Rule := rules.filter fun r => r.isUnconditioned

theorem mem_unconditioned (rules : List Rule) (r : Rule) :
    r ∈ unconditioned rules ↔ r ∈ rules ∧ (r.conditions = none ∨ r.conditions = some []) := by
  rw [unconditioned, List.mem_filter, Rule.isUnconditioned, Rule.conditionList, List.isEmpty_iff]
  cases r.conditions <;> simp

theorem unconditioned_append (rules rules' : List Rule) :
    unconditioned (rules ++ rules') = unconditioned rules ++ unconditioned rules' :=
  List.filter_append rules rules'

section
variable (schema : Schema) (ops : Registry)

def Rule.compiles (r : Rule) : Bool := (fault? (r.filter schema ops)).isNone

theorem Rule.compiles_iff (r : Rule) :
    r.compiles schema ops = true ↔ ∀ c ∈ r.clauses, ∀ e, ¬ c.Faulty schema ops e := by
  rw [compiles, Option.isNone_iff_eq_none, fault?_filter, List.findSome?_eq_none_iff]
  refine forall_congr' fun c => imp_congr_right fun _ => ?_
  simp only [Option.eq_none_iff_forall_ne_some, Ne, Clause.fault?_eq_some_iff]

theorem Rule.compiles_of_unconditioned {r : Rule} (h : r.isUnconditioned = true) :
    r.compiles schema ops = true := by
  have hclauses : r.clauses = [] := (Conditions.clauses_eq_nil_iff _).mpr (List.isEmpty_iff.mp h)
  rw [compiles_iff, hclauses]
  exact fun c hc => absurd hc List.not_mem_nil

theorem Rule.not_compiles_of_fault {r : Rule} {e : CompileError}
    (h : fault? (r.filter schema ops) = some e) : ¬ r.compiles schema ops = true := by
  rw [compiles, h]
  exact Bool.false_ne_true

theorem Rule.compiles_of_no_fault {r : Rule} (h : fault? (r.filter schema ops) = none) :
    r.compiles schema ops = true := by
  rw [compiles, h]
  rfl

/-- The rules before the first bad one, which are all rules when none is bad. -/
theorem takeWhile_compiles_of_first {before after : List Rule} {r : Rule} {e : CompileError}
    (good : ∀ b ∈ before, fault? (b.filter schema ops) = none)
    (bad : fault? (r.filter schema ops) = some e) :
    (before ++ r :: after).takeWhile (Rule.compiles schema ops) = before := by
  rw [List.takeWhile_append_of_pos fun b hb => Rule.compiles_of_no_fault schema ops (good b hb),
    List.takeWhile_cons_of_neg (Rule.not_compiles_of_fault schema ops bad), List.append_nil]

/-! ## one group -/

/-- A group fails with the fault of its first bad rule. -/
theorem fault?_compileGroup (rules : List Rule) :
    fault? (compileGroup schema ops rules).2
      = rules.findSome? fun r => fault? (r.filter schema ops) := by
  rw [compileGroup_result, fault?_group, findSome?_flatMap]
  simp only [fault?_filter]

theorem warnings_compileGroup (rules : List Rule) :
    (compileGroup schema ops rules).1
      = (unconditioned (rules.takeWhile (Rule.compiles schema ops))).map .unconditioned := by
  induction rules with
  | nil => rfl
  | cons r rest ih =>
    rw [compileGroup, compileConditions_eq]
    cases hu : r.isUnconditioned with
    | true =>
      have hcompiles := Rule.compiles_of_unconditioned schema ops hu
      rw [List.takeWhile_cons_of_pos hcompiles, unconditioned, List.filter_cons_of_pos hu]
      exact congrArg (Warning.unconditioned r :: ·) ih
    | false =>
      cases hf : r.filter schema ops with
      | error e =>
        have hfault := (fault?_eq_some_iff (r.filter schema ops) e).mpr hf
        rw [List.takeWhile_cons_of_neg (Rule.not_compiles_of_fault schema ops hfault)]
        rfl
      | ok p =>
        have hfault : fault? (r.filter schema ops) = none := by rw [hf]; rfl
        rw [List.takeWhile_cons_of_pos (Rule.compiles_of_no_fault schema ops hfault),
          unconditioned, List.filter_cons_of_neg (by simp [hu])]
        exact ih

/-! ## both groups -/

/-- The deny rules get their turn only when all allow rules compile. -/
theorem warnings_compile_eq (rules : List Rule) :
    (compile schema ops rules).warnings = (compileGroup schema ops (allowing rules)).1 ++
      if (fault? (compileGroup schema ops (allowing rules)).2).isNone
        then (compileGroup schema ops (denying rules)).1 else [] := by
  unfold compile allowing denying
  rcases compileGroup schema ops (rules.filter fun r => !r.denies) with ⟨ws, e | fs⟩
  · exact (List.append_nil ws).symm
  · rfl

theorem warnings_compile (rules : List Rule) :
    (compile schema ops rules).warnings
      = (unconditioned ((rulesInOrder rules).takeWhile (Rule.compiles schema ops))).map
          .unconditioned := by
  rw [warnings_compile_eq, fault?_compileGroup, warnings_compileGroup, warnings_compileGroup,
    rulesInOrder]
  cases hfault : (allowing rules).findSome? fun r => fault? (r.filter schema ops) with
  | some e =>
    obtain ⟨before, r, after, hsplit, bad, good⟩ := List.findSome?_eq_some_iff.mp hfault
    rw [hsplit, List.append_assoc, List.cons_append,
      takeWhile_compiles_of_first schema ops good bad, takeWhile_compiles_of_first schema ops good bad]
    exact List.append_nil _
  | none =>
    have good : ∀ r ∈ allowing rules, r.compiles schema ops = true := fun r hr =>
      Rule.compiles_of_no_fault schema ops (List.findSome?_eq_none_iff.mp hfault r hr)
    rw [List.takeWhile_append_of_pos good, List.takeWhile_eq_self_iff.mpr good,
      unconditioned_append, List.map_append]
    rfl

/-- The fault of a compilation is that of the first bad rule. -/
theorem fault?_compile_rules (rules : List Rule) :
    fault? (compile schema ops rules).result
      = (rulesInOrder rules).findSome? fun r => fault? (r.filter schema ops) := by
  rw [fault?_compile, clausesInOrder, findSome?_flatMap, rulesInOrder]
  simp only [fault?_filter]

/-- **Every skipped rule is warned about.** A compilation that succeeds, be it with the constant false,
warns once of each rule without conditions, of the allow rules first and each time in their order. One
that fails has warned just so of the rules without conditions that come before the first bad rule. The
warning shows the rule. -/
theorem compile_warns (rules : List Rule) :
    (∀ p, (compile schema ops rules).result = .ok p →
      (compile schema ops rules).warnings
        = (unconditioned (allowing rules) ++ unconditioned (denying rules)).map .unconditioned) ∧
    (∀ e, (compile schema ops rules).result = .error e →
      ∃ before r after, allowing rules ++ denying rules = before ++ r :: after ∧
        (∀ b ∈ before, ∀ c ∈ b.clauses, ∀ e', ¬ c.Faulty schema ops e') ∧
        (∃ c ∈ r.clauses, c.Faulty schema ops e) ∧
        (compile schema ops rules).warnings = (unconditioned before).map .unconditioned) ∧
    (∀ group r, r ∈ unconditioned group ↔
      r ∈ group ∧ (r.conditions = none ∨ r.conditions = some [])) ∧
    ∀ r, (Warning.unconditioned r).message
      = "skipping unconditioned rule; it contributes no filter | rule=" ++ r.display := by
  refine ⟨fun p hp => ?_, fun e he => ?_, mem_unconditioned, fun r => rfl⟩
  · have hfault := fault?_compile_rules schema ops rules
    rw [hp] at hfault
    have good := List.findSome?_eq_none_iff.mp hfault.symm
    rw [warnings_compile, ← unconditioned_append, ← rulesInOrder, List.takeWhile_eq_self_iff.mpr
      fun r hr => Rule.compiles_of_no_fault schema ops (good r hr)]
  · have hfault := fault?_compile_rules schema ops rules
    rw [he] at hfault
    obtain ⟨before, r, after, hsplit, bad, good⟩ := List.findSome?_eq_some_iff.mp hfault.symm
    refine ⟨before, r, after, hsplit, fun b hb => ?_, ?_, ?_⟩
    · exact (b.compiles_iff schema ops).mp (Rule.compiles_of_no_fault schema ops (good b hb))
    · rw [fault?_filter] at bad
      obtain ⟨c, hc, hce⟩ := List.exists_of_findSome?_eq_some bad
      exact ⟨c, hc, (c.fault?_eq_some_iff schema ops e).mp hce⟩
    · rw [warnings_compile, hsplit, takeWhile_compiles_of_first schema ops good bad]

/-- Nothing is granted by two rules without conditions, and both are warned about, the allow rule
first. With a bad deny rule between them and one more behind it, the last one gets no warning. -/
theorem compile_warns_until_fault :
    let schema : Schema := fun field => if field = "owner" then some ⟨"sites", field⟩ else none
    let deny : Rule := ⟨["edit"], ["Site"], none, true, none⟩
    let allow : Rule := ⟨["read", "list"], ["Site"], some [], false, none⟩
    let bad : Rule := ⟨["read"], ["Site"], some [("secret", .bool true)], true, none⟩
    (compile schema .standard [deny, allow]).result = .ok (.const false) ∧
      (compile schema .standard [deny, allow]).warnings
        = [.unconditioned allow, .unconditioned deny] ∧
      (compile schema .standard [deny, bad, allow, deny]).result = .error (.unknownColumn "secret") ∧
      (∃ before r after, [allow, deny, bad, deny] = before ++ r :: after ∧
        (∃ c ∈ r.clauses, c.Faulty schema .standard (.unknownColumn "secret")) ∧
        (compile schema .standard [deny, bad, allow, deny]).warnings
          = (unconditioned before).map .unconditioned) ∧
      (compile schema .standard [deny, bad, allow, deny]).warnings.map Warning.message
        = ["skipping unconditioned rule; it contributes no filter | rule=can read|list Site",
          "skipping unconditioned rule; it contributes no filter | rule=cannot edit Site"] := by
  intro schema deny allow bad
  obtain ⟨hok, -⟩ := compile_warns schema .standard [deny, allow]
  obtain ⟨-, herror, -⟩ := compile_warns schema .standard [deny, bad, allow, deny]
  obtain ⟨before, r, after, hsplit, -, hfault, hwarnings⟩ := herror (.unknownColumn "secret") rfl
  exact ⟨rfl, hok (.const false) rfl, rfl, ⟨before, r, after, hsplit, hfault, hwarnings⟩, rfl⟩

end

end AccessFilter
