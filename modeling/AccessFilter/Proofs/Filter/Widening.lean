import AccessFilter.Proofs.Filter.Order
import Mathlib.Data.List.Basic

/-!
# Which changes of a rule list widen access

A rule list is at least as wide as another when each allow rule of the other has an allow rule in it
that asks for no more, and each deny rule in it is matched by one of the other that asks for no more.
Then it hides no row that the other shows. Unconditioned rules count for nothing on either side, and
so a rule must keep a condition to stand for another.

* `Rule.Refines`           a rule that asks for all that another asks for;
* `Covered`, `Widens`      a rule list at least as wide as another;
* `holds_of_widens`        what passes the filter of a rule list passes that of a wider one;
* `Rule.Extends`           a rule with one more condition, or one more entry of an operator object;
* `filterRows_monotone`    allow rules only add rows, deny rules only take rows away, and a further
                           condition makes a rule weaker.
-/

namespace AccessFilter

/-! ## rules that ask for more -/

/-- The rule `s` asks for all that `r` asks for, which is something. -/
structure Rule.Refines (s r : Rule) : Prop where
  denies : s.denies = r.denies
  conditioned : r.conditionList ≠ []
  clauses : r.clauses ⊆ s.clauses

theorem Rule.Refines.refl {r : Rule} (h : r.conditionList ≠ []) : r.Refines r :=
  ⟨rfl, h, List.Subset.refl _⟩

section
variable {schema : Schema} {ops : Registry} {row : Row}

theorem Rule.Refines.trueOn {s r : Rule} (h : s.Refines r) (ht : s.TrueOn schema ops row) :
    r.TrueOn schema ops row :=
  fun c hc => ht c (h.clauses hc)

theorem Rule.Refines.falseOn {s r : Rule} (h : s.Refines r) (hf : r.FalseOn schema ops row) :
    s.FalseOn schema ops row := by
  obtain ⟨c, hc, hfalse⟩ := hf
  exact ⟨c, h.clauses hc, hfalse⟩

end

/-! ## wider rule lists -/

/-- Each conditioned rule of one kind in the first list asks for all that some rule in the second
asks for. -/
def Covered (denies : Bool) (rules rules' : List Rule) : Prop :=
  ∀ s ∈ rules, s.denies = denies → s.conditionList ≠ [] → ∃ r ∈ rules', s.Refines r

section
variable {denies : Bool}

theorem Covered.nil (rules : List Rule) : Covered denies [] rules := nofun

theorem Covered.single {s r : Rule} (h : s.Refines r) : Covered denies [s] [r] := by
  intro s' hs _ _
  rw [List.mem_singleton.mp hs]
  exact ⟨r, List.mem_singleton_self r, h⟩

theorem Covered.other {r : Rule} (h : r.denies ≠ denies) (rules : List Rule) :
    Covered denies [r] rules := by
  intro s hs hden
  rw [List.mem_singleton.mp hs] at hden
  exact absurd hden h

theorem Covered.within {part part' : List Rule} (h : Covered denies part part')
    (before after : List Rule) :
    Covered denies (before ++ part ++ after) (before ++ part' ++ after) := by
  intro s hs hden hc
  rcases List.mem_append.mp hs with hs | hs
  · rcases List.mem_append.mp hs with hs | hs
    · exact ⟨s, by simp [hs], .refl hc⟩
    · obtain ⟨r, hr, href⟩ := h s hs hden hc
      exact ⟨r, by simp [hr], href⟩
  · exact ⟨s, by simp [hs], .refl hc⟩

end

/-- The second list lets through at least what the first does. -/
structure Widens (rules rules' : List Rule) : Prop where
  allow : Covered false rules rules'
  deny : Covered true rules' rules

/-- A part of a list may be widened where it stands. -/
theorem Widens.within {part part' : List Rule} (h : Widens part part') (before after : List Rule) :
    Widens (before ++ part ++ after) (before ++ part' ++ after) :=
  ⟨h.allow.within before after, h.deny.within before after⟩

theorem Widens.allowed {r : Rule} (h : r.denies = false) : Widens [] [r] :=
  ⟨.nil _, .other (by simp [h]) _⟩

theorem Widens.undenied {r : Rule} (h : r.denies = true) : Widens [r] [] :=
  ⟨.other (by simp [h]) _, .nil _⟩

theorem Widens.relaxed {s r : Rule} (h : s.Refines r) (hd : r.denies = false) :
    Widens [s] [r] :=
  ⟨.single h, .other (by simp [hd]) _⟩

theorem Widens.tightened {s r : Rule} (h : s.Refines r) (hd : r.denies = true) :
    Widens [r] [s] :=
  ⟨.other (by simp [hd]) _, .single h⟩

section
variable {schema : Schema} {ops : Registry} {rules rules' : List Rule} {p q : Predicate}

theorem holds_filterOf (allow deny : List Predicate) (row : Row) :
    (filterOf allow deny).holds row = true ↔
      Predicate.evaluateAny row allow = some true ∧ Predicate.evaluateAny row deny = some false := by
  rw [Predicate.holds, beq_iff_eq, evaluate_filterOf, Truth.and_eq_true_iff, Truth.not_eq_true_iff]

/-- What passes the filter of a rule list passes that of a wider one. -/
theorem holds_of_widens (h : Widens rules rules') (hp : (compile schema ops rules).result = .ok p)
    (hq : (compile schema ops rules').result = .ok q) {row : Row} (hrow : p.holds row = true) :
    q.holds row = true := by
  obtain ⟨allow, deny, ha, hd, rfl⟩ := (compile_eq_ok_iff schema ops rules p).mp hp
  obtain ⟨allow', deny', ha', hd', rfl⟩ := (compile_eq_ok_iff schema ops rules' q).mp hq
  rw [holds_filterOf, evaluateAny_group_eq_true_iff ha, evaluateAny_group_eq_false_iff hd] at hrow
  obtain ⟨⟨s, hs, hc, ht⟩, hall⟩ := hrow
  rw [holds_filterOf, evaluateAny_group_eq_true_iff ha', evaluateAny_group_eq_false_iff hd']
  constructor
  · obtain ⟨hmem, hden⟩ := (mem_allowing rules s).mp hs
    obtain ⟨r, hr, href⟩ := h.allow s hmem hden hc
    have hden' : r.denies = false := href.denies ▸ hden
    exact ⟨r, (mem_allowing rules' r).mpr ⟨hr, hden'⟩, href.conditioned, href.trueOn ht⟩
  · intro s hs hc
    obtain ⟨hmem, hden⟩ := (mem_denying rules' s).mp hs
    obtain ⟨r, hr, href⟩ := h.deny s hmem hden hc
    have hden' : r.denies = true := href.denies ▸ hden
    exact href.falseOn (hall r ((mem_denying rules r).mpr ⟨hr, hden'⟩) href.conditioned)

theorem filterRows_sublist_of_widens (h : Widens rules rules')
    (hp : (compile schema ops rules).result = .ok p)
    (hq : (compile schema ops rules').result = .ok q) (rows : List Row) :
    (p.filterRows rows).Sublist (q.filterRows rows) :=
  List.monotone_filter_right rows fun _ => holds_of_widens h hp hq

end

/-! ## one more condition -/

/-- One more condition, on a field that has none, or one more entry of an operator object, under a
key that has none. -/
inductive Conditions.Extends : Conditions → Conditions → Prop
  | field (before after : Conditions) (field : String) (value : Value)
      (fresh : field ∉ Fields.keys (before ++ after)) :
      Extends (before ++ after) (before ++ (field, value) :: after)
  | entry (before after : Conditions) (field : String) (first last : List (String × Value))
      (symbol : String) (operand : Value) (fresh : symbol ∉ Fields.keys (first ++ last)) :
      Extends (before ++ (field, .object (first ++ last)) :: after)
        (before ++ (field, .object (first ++ (symbol, operand) :: last)) :: after)

/-- The rule `s` is the rule `r`, which has a condition, with one more. -/
structure Rule.Extends (r s : Rule) : Prop where
  conditioned : r.conditionList ≠ []
  extended : Conditions.Extends r.conditionList s.conditionList
  same : s = { r with conditions := some s.conditionList }

theorem clausesOf_object (field : String) {entries : List (String × Value)} (h : entries ≠ []) :
    clausesOf field (.object entries) = entries.map fun e => .apply field e.1 e.2 := by
  cases entries with
  | nil => exact absurd rfl h
  | cons e es => rfl

theorem Conditions.Extends.clauses_subset {cs cs' : Conditions} (h : cs.Extends cs')
    (full : ∀ field, Clause.bare field ∉ cs.clauses) : cs.clauses ⊆ cs'.clauses := by
  cases h with
  | field before after field value fresh =>
    intro c hc
    simp only [clauses, List.flatMap_append, List.flatMap_cons, List.mem_append] at hc ⊢
    exact hc.imp_right Or.inr
  | entry before after field first last symbol operand fresh =>
    -- an object without entries is a clause of its own, which goes away with the first entry
    have hne : first ++ last ≠ [] := by
      intro hnil
      apply full field
      simp [clauses, hnil, clausesOf]
    have hne' : first ++ (symbol, operand) :: last ≠ [] := by simp
    intro c hc
    simp only [clauses, List.flatMap_append, List.flatMap_cons, List.mem_append,
      clausesOf_object field hne, clausesOf_object field hne', List.map_append, List.map_cons,
      List.mem_cons] at hc ⊢
    rcases hc with hc | (hc | hc) | hc
    · exact Or.inl hc
    · exact Or.inr (Or.inl (Or.inl hc))
    · exact Or.inr (Or.inl (Or.inr (Or.inr hc)))
    · exact Or.inr (Or.inr hc)

theorem Rule.Extends.denies {r s : Rule} (h : r.Extends s) : s.denies = r.denies := by
  rw [h.same]

theorem Rule.Extends.refines {r s : Rule} (h : r.Extends s)
    (full : ∀ field, Clause.bare field ∉ r.clauses) : s.Refines r :=
  ⟨h.denies, h.conditioned, h.extended.clauses_subset full⟩

/-- No rule of a list that compiles has an operator object without entries. -/
theorem bare_notMem_of_compile {schema : Schema} {ops : Registry} {rules : List Rule}
    {p : Predicate} (hp : (compile schema ops rules).result = .ok p) {r : Rule} (hr : r ∈ rules)
    (field : String) : Clause.bare field ∉ r.clauses := by
  intro hbare
  have hc : r.conditionList ≠ [] := by
    intro hnil
    rw [Rule.clauses, (Conditions.clauses_eq_nil_iff _).mpr hnil] at hbare
    cases hbare
  obtain ⟨f, hf⟩ := (exists_compile_ok_iff schema ops rules).mp ⟨p, hp⟩ r hr hc
  obtain ⟨ps, hps, -⟩ := (map_eq_ok_iff _ _ _).mp hf
  obtain ⟨b, -, hb⟩ := exists_of_mapM hps hbare
  exact Clause.builds_of_build schema ops hb

/-! ## the four changes -/

/-- **Monotonicity of access.** A further allow rule, wherever it stands, hides no visible row, and a
further deny rule reveals no hidden one. A further condition of an allow rule that has one reveals no
hidden row, and that of a deny rule hides no visible one. -/
theorem filterRows_monotone (schema : Schema) (ops : Registry) (before after : List Rule)
    (r : Rule) (p q : Predicate) (rows : List Row) :
    ((compile schema ops (before ++ after)).result = .ok p →
      (compile schema ops (before ++ r :: after)).result = .ok q →
      (r.denies = false → (p.filterRows rows).Sublist (q.filterRows rows)) ∧
      (r.denies = true → (q.filterRows rows).Sublist (p.filterRows rows))) ∧
    ∀ s, r.Extends s →
      (compile schema ops (before ++ r :: after)).result = .ok p →
      (compile schema ops (before ++ s :: after)).result = .ok q →
      (r.denies = false → (q.filterRows rows).Sublist (p.filterRows rows)) ∧
      (r.denies = true → (p.filterRows rows).Sublist (q.filterRows rows)) := by
  constructor
  · intro hp hq
    constructor
    · intro hd
      have h := (Widens.allowed hd).within before after
      rw [List.append_nil, List.append_assoc] at h
      exact filterRows_sublist_of_widens h hp hq rows
    · intro hd
      have h := (Widens.undenied hd).within before after
      rw [List.append_nil, List.append_assoc] at h
      exact filterRows_sublist_of_widens h hq hp rows
  · intro s hext hp hq
    have hr : r ∈ before ++ r :: after := List.mem_append_right _ List.mem_cons_self
    have href : s.Refines r := hext.refines (bare_notMem_of_compile hp hr)
    constructor
    · intro hd
      have h := (Widens.relaxed href hd).within before after
      rw [List.append_assoc, List.append_assoc] at h
      exact filterRows_sublist_of_widens h hq hp rows
    · intro hd
      have h := (Widens.tightened href hd).within before after
      rw [List.append_assoc, List.append_assoc] at h
      exact filterRows_sublist_of_widens h hp hq rows

/-- Every one of the four changes makes a difference here: two rows are visible at first, four with
the allow rule, three with its further entry, one with the deny rule, two with its further field. -/
theorem filterRows_monotone_strict :
    let schema : Schema := fun field => some ⟨"sites", field⟩
    let before := [(Rule.allow "read" "Site").when "owner" (.string "u1")]
    let after := [(Rule.deny "read" "Site").when "archived" (.bool true)]
    let member := ("$in", Value.array [.string "tech", .string "news"])
    let allow := (Rule.allow "read" "Site").when "topic" (.object [member])
    let allow' := (Rule.allow "read" "Site").when "topic" (.object [member, ("$eq", .string "tech")])
    let deny := (Rule.deny "read" "Site").when "locked" (.bool true)
    let deny' := deny.when "public" (.bool false)
    let row (owner topic : String) (locked : Bool) : Row :=
      [("owner", .string owner), ("topic", .string topic), ("locked", .bool locked),
        ("archived", .bool false), ("public", .bool true)]
    let rows := [row "u1" "misc" false, row "u1" "misc" true, row "u2" "tech" false,
      row "u2" "news" false]
    allow.Extends allow' ∧ deny.Extends deny' ∧ ∃ p pa pa' pd pd',
      (compile schema .standard (before ++ after)).result = .ok p ∧
      (compile schema .standard (before ++ allow :: after)).result = .ok pa ∧
      (compile schema .standard (before ++ allow' :: after)).result = .ok pa' ∧
      (compile schema .standard (before ++ deny :: after)).result = .ok pd ∧
      (compile schema .standard (before ++ deny' :: after)).result = .ok pd' ∧
      (p.filterRows rows).Sublist (pa.filterRows rows) ∧
      (pd.filterRows rows).Sublist (p.filterRows rows) ∧
      (pa'.filterRows rows).Sublist (pa.filterRows rows) ∧
      (pd.filterRows rows).Sublist (pd'.filterRows rows) ∧
      [p, pa, pa', pd, pd'].map (fun p => (p.filterRows rows).length) = [2, 4, 3, 1, 2] := by
  intro schema before after member allow allow' deny deny' row rows
  have hallow : allow.Extends allow' :=
    ⟨nofun, .entry [] [] "topic" [member] [] "$eq" (.string "tech") (by decide), rfl⟩
  have hdeny : deny.Extends deny' :=
    ⟨nofun, .field [("locked", .bool true)] [] "public" (.bool false) (by decide), rfl⟩
  refine ⟨hallow, hdeny, _, _, _, _, _, rfl, rfl, rfl, rfl, rfl, ?_, ?_, ?_, ?_, rfl⟩
  · exact ((filterRows_monotone schema .standard before after allow _ _ rows).1 rfl rfl).1 rfl
  · exact ((filterRows_monotone schema .standard before after deny _ _ rows).1 rfl rfl).2 rfl
  · exact ((filterRows_monotone schema .standard before after allow _ _ rows).2 allow' hallow
      rfl rfl).1 rfl
  · exact ((filterRows_monotone schema .standard before after deny _ _ rows).2 deny' hdeny
      rfl rfl).2 rfl

-- without a condition to start with, a condition can reveal a row
example :
    let schema : Schema := fun field => some ⟨"sites", field⟩
    let visible (r : Rule) := (compile schema .standard [r]).result.map
      fun p => p.holds [("owner", .string "u1")]
    visible (Rule.allow "read" "Site") = .ok false ∧
      visible ((Rule.allow "read" "Site").when "owner" (.string "u1")) = .ok true :=
  ⟨rfl, rfl⟩

end AccessFilter
