import AccessFilter.Policy.Set
import AccessFilter.Proofs.Filter.Fault
import AccessFilter.Proofs.Filter.Order

/-!
# One rule for several actions and subjects

A rule for several actions and subjects says the same as one rule for each pair of them. A request
selects some of these rules exactly when it selects the rule itself, and all that are selected have
the same clauses: the first fault is the same, and repeating a filter in its group changes no truth.

* `Rule.expansion`            one rule for each action and subject of a rule;
* `SameOutcome`               the same fault, or two filters with the same truth on every row;
* `RestatedIn`                each rule has one of its kind with its conditions in another list;
* `RestatedIn.exists_ok`, `evaluate_of_restated`   lists that restate one another both have a
                              filter or none, and the filters have the same truth;
* `sameOutcome_repeated`      a rule may be repeated in its place;
* `filterSource_expansion`    a rule, or every rule, may be replaced by its expansion.
-/

namespace AccessFilter

/-- One rule for each action and each subject, with everything else of the rule. -/
def Rule.expansion (r : Rule) : List Rule :=
  r.actions.flatMap fun action => r.subjects.map fun subject =>
    { r with actions := [action], subjects := [subject] }

/-- The same fault, or two filters with the same truth on every row. -/
def SameOutcome : Except CompileError Predicate → Except CompileError Predicate → Prop
  | .error e, .error e' => e = e'
  | .ok p, .ok q => ∀ row, p.evaluate row = q.evaluate row
  | _, _ => False

namespace SameOutcome

theorem refl : (x : Except CompileError Predicate) → SameOutcome x x
  | .error _ => rfl
  | .ok _ => fun _ => rfl

theorem trans : {x y z : Except CompileError Predicate} → SameOutcome x y → SameOutcome y z →
    SameOutcome x z
  | .error _, .error _, .error _, hxy, hyz => Eq.trans hxy hyz
  | .ok _, .ok _, .ok _, hxy, hyz => fun row => (hxy row).trans (hyz row)

theorem of_fault? {x y : Except CompileError Predicate} (hfault : fault? x = fault? y)
    (htruth : ∀ p q, x = .ok p → y = .ok q → ∀ row, p.evaluate row = q.evaluate row) :
    SameOutcome x y := by
  cases x with
  | error e =>
    cases y with
    | error e' => exact Option.some.inj hfault
    | ok q => cases hfault
  | ok p =>
    cases y with
    | error e' => cases hfault
    | ok q => exact htruth p q rfl rfl

end SameOutcome

/-! ## lists that restate one another -/

/-- For each rule there is one in the other list of the same kind and with the same conditions. -/
def RestatedIn (rules rules' : List Rule) : Prop :=
  ∀ r ∈ rules, ∃ s ∈ rules', s.denies = r.denies ∧ s.conditionList = r.conditionList

section
variable {schema : Schema} {ops : Registry} {rules rules' : List Rule}

theorem clauses_congr {r s : Rule} (h : s.conditionList = r.conditionList) :
    s.clauses = r.clauses := by
  rw [Rule.clauses, h, Rule.clauses]

theorem RestatedIn.exists_ok (h : RestatedIn rules rules')
    (hok : ∃ q, (compile schema ops rules').result = .ok q) :
    ∃ p, (compile schema ops rules).result = .ok p := by
  rw [exists_compile_ok_iff] at hok ⊢
  intro r hr hc
  obtain ⟨s, hs, -, hconditions⟩ := h r hr
  obtain ⟨p, hp⟩ := hok s hs (hconditions ▸ hc)
  rw [Rule.filter, clauses_congr hconditions] at hp
  exact ⟨p, hp⟩

theorem RestatedIn.allowing (h : RestatedIn rules rules') :
    RestatedIn (allowing rules) (allowing rules') := by
  intro r hr
  obtain ⟨hmem, hallow⟩ := (mem_allowing rules r).mp hr
  obtain ⟨s, hs, hkind, hconditions⟩ := h r hmem
  exact ⟨s, (mem_allowing rules' s).mpr ⟨hs, hkind.trans hallow⟩, hkind, hconditions⟩

theorem RestatedIn.denying (h : RestatedIn rules rules') :
    RestatedIn (denying rules) (denying rules') := by
  intro r hr
  obtain ⟨hmem, hdeny⟩ := (mem_denying rules r).mp hr
  obtain ⟨s, hs, hkind, hconditions⟩ := h r hmem
  exact ⟨s, (mem_denying rules' s).mpr ⟨hs, hkind.trans hdeny⟩, hkind, hconditions⟩

theorem RestatedIn.exists_trueOn (h : RestatedIn rules rules') {row : Row}
    (htrue : ∃ r ∈ rules, r.conditionList ≠ [] ∧ r.TrueOn schema ops row) :
    ∃ s ∈ rules', s.conditionList ≠ [] ∧ s.TrueOn schema ops row := by
  obtain ⟨r, hr, hc, ht⟩ := htrue
  obtain ⟨s, hs, -, hconditions⟩ := h r hr
  rw [Rule.TrueOn, ← clauses_congr hconditions] at ht
  exact ⟨s, hs, hconditions ▸ hc, ht⟩

theorem RestatedIn.forall_falseOn (h : RestatedIn rules rules') {row : Row}
    (hfalse : ∀ s ∈ rules', s.conditionList ≠ [] → s.FalseOn schema ops row) :
    ∀ r ∈ rules, r.conditionList ≠ [] → r.FalseOn schema ops row := by
  intro r hr hc
  obtain ⟨s, hs, -, hconditions⟩ := h r hr
  have hs' := hfalse s hs (hconditions ▸ hc)
  rw [Rule.FalseOn, clauses_congr hconditions] at hs'
  exact hs'

theorem evaluateAny_of_restated (h : RestatedIn rules rules') (h' : RestatedIn rules' rules)
    {ps qs : List Predicate} (hp : (conditioned rules).mapM (Rule.filter schema ops) = .ok ps)
    (hq : (conditioned rules').mapM (Rule.filter schema ops) = .ok qs) (row : Row) :
    Predicate.evaluateAny row ps = Predicate.evaluateAny row qs := by
  rw [Truth.eq_iff, evaluateAny_group_eq_true_iff hp, evaluateAny_group_eq_true_iff hq,
    evaluateAny_group_eq_false_iff hp, evaluateAny_group_eq_false_iff hq]
  exact ⟨⟨h.exists_trueOn, h'.exists_trueOn⟩, ⟨h'.forall_falseOn, h.forall_falseOn⟩⟩

/-- Filters of lists that restate one another have the same truth on every row. -/
theorem evaluate_of_restated (h : RestatedIn rules rules') (h' : RestatedIn rules' rules)
    {p q : Predicate} (hp : (compile schema ops rules).result = .ok p)
    (hq : (compile schema ops rules').result = .ok q) (row : Row) :
    p.evaluate row = q.evaluate row := by
  obtain ⟨allow, deny, ha, hd, rfl⟩ := (compile_eq_ok_iff schema ops rules p).mp hp
  obtain ⟨allow', deny', ha', hd', rfl⟩ := (compile_eq_ok_iff schema ops rules' q).mp hq
  rw [evaluate_filterOf, evaluate_filterOf,
    evaluateAny_of_restated h.allowing h'.allowing ha ha' row,
    evaluateAny_of_restated h.denying h'.denying hd hd' row]

end

/-! ## a rule repeated in its place -/

/-- Rules of the kind and with the conditions of a rule. -/
structure Repeats (r : Rule) (copies : List Rule) : Prop where
  some : copies ≠ []
  kind : ∀ c ∈ copies, c.denies = r.denies
  conditions : ∀ c ∈ copies, c.conditionList = r.conditionList

section
variable {r : Rule} {copies : List Rule}

theorem findSome?_of_const {α β : Type} {f : α → Option β} {o : Option β} {l : List α}
    (hne : l ≠ []) (h : ∀ a ∈ l, f a = o) : l.findSome? f = o := by
  induction l with
  | nil => exact absurd rfl hne
  | cons a l ih =>
    obtain ⟨ha, hl⟩ := List.forall_mem_cons.mp h
    rw [List.findSome?_cons, ha]
    cases o with
    | some b => rfl
    | none =>
      by_cases hnil : l = []
      · rw [hnil]
        rfl
      · exact ih hnil hl

/-- A group with the copies in the place of the rule has the same first fault. -/
theorem Repeats.findSome?_clauses (h : Repeats r copies) (keep : Rule → Bool)
    (hkeep : ∀ c ∈ copies, keep c = keep r) (f : Clause → Option CompileError)
    (before after : List Rule) :
    (((before ++ copies ++ after).filter keep).flatMap Rule.clauses).findSome? f
      = (((before ++ r :: after).filter keep).flatMap Rule.clauses).findSome? f := by
  have hcopies : ((copies.filter keep).flatMap Rule.clauses).findSome? f
      = (([r].filter keep).flatMap Rule.clauses).findSome? f := by
    cases hr : keep r with
    | false =>
      have hnone : copies.filter keep = [] :=
        List.filter_eq_nil_iff.mpr fun c hc => by rw [hkeep c hc, hr]; exact Bool.false_ne_true
      rw [hnone, List.filter_cons_of_neg (by rw [hr]; exact Bool.false_ne_true), List.filter_nil]
    | true =>
      have hall : copies.filter keep = copies :=
        List.filter_eq_self.mpr fun c hc => (hkeep c hc).trans hr
      rw [hall, List.filter_cons_of_pos hr, List.filter_nil, List.flatMap_singleton,
        findSome?_flatMap]
      exact findSome?_of_const h.some fun c hc => by rw [clauses_congr (h.conditions c hc)]
  rw [← List.singleton_append, ← List.append_assoc before [r] after]
  simp only [List.filter_append, List.flatMap_append, List.findSome?_append, hcopies]

theorem Repeats.fault?_compile (h : Repeats r copies) (schema : Schema) (ops : Registry)
    (before after : List Rule) :
    fault? (compile schema ops (before ++ r :: after)).result
      = fault? (compile schema ops (before ++ copies ++ after)).result := by
  rw [AccessFilter.fault?_compile, AccessFilter.fault?_compile, clausesInOrder, clausesInOrder,
    List.flatMap_append, List.flatMap_append, List.findSome?_append, List.findSome?_append]
  have hallow := h.findSome?_clauses (fun s => !s.denies) (fun c hc => by rw [h.kind c hc])
    (Clause.fault? schema ops) before after
  have hdeny := h.findSome?_clauses (fun s => s.denies) (fun c hc => h.kind c hc)
    (Clause.fault? schema ops) before after
  rw [allowing, allowing, denying, denying, hallow, hdeny]

theorem Repeats.restated (h : Repeats r copies) (before after : List Rule) :
    RestatedIn (before ++ r :: after) (before ++ copies ++ after) := by
  intro s hs
  rcases List.mem_append.mp hs with hs | hs
  · exact ⟨s, List.mem_append_left _ (List.mem_append_left _ hs), rfl, rfl⟩
  · rcases List.mem_cons.mp hs with rfl | hs
    · obtain ⟨c, hc⟩ := List.exists_mem_of_ne_nil copies h.some
      exact ⟨c, List.mem_append_left _ (List.mem_append_right _ hc), h.kind c hc,
        h.conditions c hc⟩
    · exact ⟨s, List.mem_append_right _ hs, rfl, rfl⟩

theorem Repeats.restates (h : Repeats r copies) (before after : List Rule) :
    RestatedIn (before ++ copies ++ after) (before ++ r :: after) := by
  intro s hs
  rcases List.mem_append.mp hs with hs | hs
  · rcases List.mem_append.mp hs with hs | hs
    · exact ⟨s, List.mem_append_left _ hs, rfl, rfl⟩
    · exact ⟨r, List.mem_append_right _ List.mem_cons_self, (h.kind s hs).symm,
        (h.conditions s hs).symm⟩
  · exact ⟨s, List.mem_append_right _ (List.mem_cons_of_mem _ hs), rfl, rfl⟩

/-- A rule may be repeated in its place. -/
theorem sameOutcome_repeated (h : Repeats r copies) (schema : Schema) (ops : Registry)
    (before after : List Rule) :
    SameOutcome (compile schema ops (before ++ r :: after)).result
      (compile schema ops (before ++ copies ++ after)).result :=
  .of_fault? (h.fault?_compile schema ops before after) fun _ _ hp hq =>
    evaluate_of_restated (h.restated before after) (h.restates before after) hp hq

end

/-! ## the expansion of a rule -/

namespace Rule

variable (r : Rule)

theorem mem_expansion_iff (c : Rule) :
    c ∈ r.expansion ↔ ∃ action ∈ r.actions, ∃ subject ∈ r.subjects,
      c = { r with actions := [action], subjects := [subject] } := by
  simp only [expansion, List.mem_flatMap, List.mem_map, eq_comm]

/-- A request selects a rule exactly when it selects a rule of its expansion. -/
theorem applies_iff_expansion (action subject : String) :
    r.applies action subject = true ↔ ∃ c ∈ r.expansion, c.applies action subject = true := by
  constructor
  · intro h
    obtain ⟨ha, hs⟩ := (Bool.and_eq_true_iff).mp h
    obtain ⟨a, hmem, hmatch⟩ := List.any_eq_true.mp ha
    obtain ⟨s, hmem', hmatch'⟩ := List.any_eq_true.mp hs
    refine ⟨_, (r.mem_expansion_iff _).mpr ⟨a, hmem, s, hmem', rfl⟩, ?_⟩
    rw [applies, List.any_cons, List.any_cons, hmatch, hmatch']
    rfl
  · rintro ⟨c, hc, h⟩
    obtain ⟨a, hmem, s, hmem', rfl⟩ := (r.mem_expansion_iff c).mp hc
    obtain ⟨ha, hs⟩ := (Bool.and_eq_true_iff).mp h
    obtain ⟨a', ha', hmatch⟩ := List.any_eq_true.mp ha
    obtain ⟨s', hs', hmatch'⟩ := List.any_eq_true.mp hs
    cases List.mem_singleton.mp ha'
    cases List.mem_singleton.mp hs'
    exact Bool.and_eq_true_iff.mpr
      ⟨List.any_eq_true.mpr ⟨a, hmem, hmatch⟩, List.any_eq_true.mpr ⟨s, hmem', hmatch'⟩⟩

/-- What a request selects of an expansion: nothing, or copies of the rule. -/
theorem repeats_expansion {action subject : String} (h : r.applies action subject = true) :
    Repeats r (r.expansion.filter fun c => c.applies action subject) := by
  have hcopy : ∀ c ∈ r.expansion.filter fun c => c.applies action subject,
      c.denies = r.denies ∧ c.conditionList = r.conditionList := by
    intro c hc
    obtain ⟨a, -, s, -, rfl⟩ := (r.mem_expansion_iff c).mp (List.mem_filter.mp hc).1
    exact ⟨rfl, rfl⟩
  refine ⟨fun hnil => ?_, fun c hc => (hcopy c hc).1, fun c hc => (hcopy c hc).2⟩
  obtain ⟨c, hc, happlies⟩ := (r.applies_iff_expansion action subject).mp h
  exact List.filter_eq_nil_iff.mp hnil c hc happlies

end Rule

section
variable (a : Adapter) (action subject : String)

theorem sameOutcome_expansion (before after : List Rule) (r : Rule) :
    SameOutcome
      (a.filterSource (PolicySet.mk (before ++ r :: after)).rulesFor action subject).result
      (a.filterSource (PolicySet.mk (before ++ r.expansion ++ after)).rulesFor action subject).result
    := by
  simp only [Adapter.filterSource, Adapter.filterRules, PolicySet.rulesFor, List.filter_append,
    List.filter_cons]
  split
  · next happlies => exact sameOutcome_repeated (r.repeats_expansion happlies) _ _ _ _
  · next hnot =>
    have hnone : (r.expansion.filter fun c => c.applies action subject) = [] :=
      List.filter_eq_nil_iff.mpr fun c hc hc' =>
        hnot ((r.applies_iff_expansion action subject).mpr ⟨c, hc, hc'⟩)
    rw [hnone, List.append_nil]
    exact .refl _

/-- The rules from some place on replaced by their expansions. -/
theorem sameOutcome_flatMap_expansion (before rules : List Rule) :
    SameOutcome
      (a.filterSource (PolicySet.mk (before ++ rules)).rulesFor action subject).result
      (a.filterSource (PolicySet.mk (before ++ rules.flatMap Rule.expansion)).rulesFor action
        subject).result := by
  induction rules generalizing before with
  | nil => exact .refl _
  | cons r rest ih =>
    have hrest := ih (before ++ r.expansion)
    rw [List.append_assoc, List.append_assoc, ← List.flatMap_cons, ← List.append_assoc] at hrest
    exact (sameOutcome_expansion a action subject before rest r).trans hrest

end

/-- **A rule for several actions and subjects means what its expansion means.** In any policy set a
rule may be replaced in its place by one rule for each of its actions and subjects, none if it has no
action or no subject; every request then ends with the same fault, or with a filter of the same truth
on every row. So may all rules at once. -/
theorem filterSource_expansion (a : Adapter) (action subject : String) :
    (∀ (before : List Rule) (r : Rule) (after : List Rule), SameOutcome
      (a.filterSource (PolicySet.mk (before ++ r :: after)).rulesFor action subject).result
      (a.filterSource (PolicySet.mk (before ++ r.expansion ++ after)).rulesFor action
        subject).result) ∧
    (∀ rules : List Rule, SameOutcome
      (a.filterSource (PolicySet.mk rules).rulesFor action subject).result
      (a.filterSource (PolicySet.mk (rules.flatMap Rule.expansion)).rulesFor action
        subject).result) :=
  ⟨fun before r after => sameOutcome_expansion a action subject before after r,
    fun rules => sameOutcome_flatMap_expansion a action subject [] rules⟩

end AccessFilter
