import AccessFilter.Proofs.Filter.Clause
import Mathlib.Data.List.Forall2
import Mathlib.Data.List.Nodup

/-!
# The form of a compiled filter

With the built-in operators every clause gives one leaf, which is settled by its symbol and operand.
Nothing is dropped, repeated or moved on the way: the leaves of a rule stand in a conjunction, rules
of a kind in a disjunction, and a group is made only where there are two parts or more.

* `Operator.Leaf`, `Clause.Leaf`   the leaf of a symbol and an operand, and that of a clause;
* `Joined`                     one part as it is, or a group of several;
* `Rule.Form`, `FilterForm`    the conjunction of a rule, and the filter of such conjunctions;
* `Predicate.Tidy`             no empty group, no group of one, no empty list, no constant true;
* `compile_eq_ok_iff_form`     what a compilation gives.
-/

namespace AccessFilter

/-! ## leaves -/

/-- The comparisons that treat null like any other value, by symbol. -/
def orderings : List (String × Comparison) :=
  [("$gt", .gt), ("$gte", .ge), ("$lt", .lt), ("$lte", .le)]

/-- The leaf of a built-in operator on a column. -/
inductive Operator.Leaf (column : Column) : String → Value → Predicate → Prop
  | null : Leaf column "$eq" .null (.isNull column false)
  | equal (v : Value) (known : v.isNull = false) : Leaf column "$eq" v (.compare column .eq v)
  | notNull : Leaf column "$ne" .null (.isNull column true)
  | unequal (v : Value) (known : v.isNull = false) : Leaf column "$ne" v (.compare column .ne v)
  | ordering (symbol : String) (op : Comparison) (v : Value) (listed : (symbol, op) ∈ orderings) :
      Leaf column symbol v (.compare column op v)
  | nowhere : Leaf column "$in" (.array []) (.const false)
  | member (v : Value) (vs : List Value) :
      Leaf column "$in" (.array (v :: vs)) (.inList column (v :: vs))
  | anywhere : Leaf column "$nin" (.array []) (.not (.const false))
  | noMember (v : Value) (vs : List Value) :
      Leaf column "$nin" (.array (v :: vs)) (.not (.inList column (v :: vs)))

/-- The leaf of a clause: its symbol is known, and it is about the column of its field. -/
def Clause.Leaf (schema : Schema) (ops : Registry) : Clause → Predicate → Prop
  | .apply field symbol operand, p => ∃ column,
      schema field = some column ∧ ops.contains symbol = true ∧ Operator.Leaf column symbol operand p
  | .bare _, _ => False

/-- The operator gives the leaves of the symbol. -/
def Operator.Gives (op : Operator) (symbol : String) : Prop :=
  ∀ column v p, op column v = .ok p ↔ Operator.Leaf column symbol v p

def comparisonSymbols : List (String × Comparison) := ("$eq", .eq) :: ("$ne", .ne) :: orderings

theorem comparing_ordering (column : Column) {symbol : String} {op : Comparison} (v : Value)
    (h : (symbol, op) ∈ orderings) : Predicate.comparing column op v = .compare column op v := by
  simp only [orderings, List.mem_cons, Prod.mk.injEq, List.not_mem_nil, or_false] at h
  rcases h with ⟨-, rfl⟩ | ⟨-, rfl⟩ | ⟨-, rfl⟩ | ⟨-, rfl⟩ <;> rfl

theorem leaf_comparing (column : Column) {symbol : String} {op : Comparison} (v : Value)
    (h : (symbol, op) ∈ comparisonSymbols) :
    Operator.Leaf column symbol v (.comparing column op v) := by
  rcases List.mem_cons.mp h with heq | h
  · cases heq
    cases v with
    | null => exact .null
    | _ => exact .equal _ rfl
  · rcases List.mem_cons.mp h with heq | h
    · cases heq
      cases v with
      | null => exact .notNull
      | _ => exact .unequal _ rfl
    · rw [comparing_ordering column v h]
      exact .ordering symbol op v h

theorem leaf_oneOf (column : Column) (vs : List Value) :
    Operator.Leaf column "$in" (.array vs) (.oneOf column vs) := by
  cases vs with
  | nil => exact .nowhere
  | cons v vs => exact .member v vs

theorem leaf_notOneOf (column : Column) (vs : List Value) :
    Operator.Leaf column "$nin" (.array vs) (.not (.oneOf column vs)) := by
  cases vs with
  | nil => exact .anywhere
  | cons v vs => exact .noMember v vs

/-- A leaf is a comparison of the symbol, or tests membership in an array. -/
theorem leaf_cases {column : Column} {symbol : String} {v : Value} {p : Predicate}
    (h : Operator.Leaf column symbol v p) :
    (∃ op, (symbol, op) ∈ comparisonSymbols ∧ p = .comparing column op v) ∨
      ∃ vs, v = .array vs ∧ (symbol = "$in" ∧ p = .oneOf column vs ∨
        symbol = "$nin" ∧ p = .not (.oneOf column vs)) := by
  cases h with
  | null => exact Or.inl ⟨.eq, by simp [comparisonSymbols], rfl⟩
  | equal v known =>
    refine Or.inl ⟨.eq, by simp [comparisonSymbols], ?_⟩
    cases v <;> first | rfl | cases known
  | notNull => exact Or.inl ⟨.ne, by simp [comparisonSymbols], rfl⟩
  | unequal v known =>
    refine Or.inl ⟨.ne, by simp [comparisonSymbols], ?_⟩
    cases v <;> first | rfl | cases known
  | ordering symbol op v listed =>
    refine Or.inl ⟨op, ?_, (comparing_ordering column v listed).symm⟩
    exact List.mem_cons_of_mem _ (List.mem_cons_of_mem _ listed)
  | nowhere => exact Or.inr ⟨_, rfl, Or.inl ⟨rfl, rfl⟩⟩
  | member v vs => exact Or.inr ⟨_, rfl, Or.inl ⟨rfl, rfl⟩⟩
  | anywhere => exact Or.inr ⟨_, rfl, Or.inr ⟨rfl, rfl⟩⟩
  | noMember v vs => exact Or.inr ⟨_, rfl, Or.inr ⟨rfl, rfl⟩⟩

theorem gives_comparing {symbol : String} {op : Comparison} (h : (symbol, op) ∈ comparisonSymbols) :
    (Operator.comparing op).Gives symbol := by
  -- a symbol is listed once, and memberships are not listed
  have hkeys : (comparisonSymbols.map Prod.fst).Nodup := by decide
  have hmember : "$in" ∉ comparisonSymbols.map Prod.fst := by decide
  have hnone : "$nin" ∉ comparisonSymbols.map Prod.fst := by decide
  have hsymbol := List.mem_map_of_mem (f := Prod.fst) h
  intro column v p
  have hok : Operator.comparing op column v = .ok (.comparing column op v) := rfl
  rw [hok, Except.ok.injEq]
  constructor
  · rintro rfl
    exact leaf_comparing column v h
  · intro hleaf
    rcases leaf_cases hleaf with ⟨op', h', rfl⟩ | ⟨vs, -, ⟨rfl, -⟩ | ⟨rfl, -⟩⟩
    · cases List.inj_on_of_nodup_map hkeys h h' rfl
      rfl
    · exact absurd hsymbol hmember
    · exact absurd hsymbol hnone

theorem gives_oneOf : Operator.oneOf.Gives "$in" := by
  intro column v p
  constructor
  · intro h
    cases v with
    | array vs =>
      cases h
      exact leaf_oneOf column vs
    | _ => cases h
  · intro h
    rcases leaf_cases h with ⟨op, hlisted, -⟩ | ⟨vs, rfl, ⟨-, rfl⟩ | ⟨hsymbol, -⟩⟩
    · simp [comparisonSymbols, orderings] at hlisted
    · rfl
    · simp at hsymbol

theorem gives_notOneOf : Operator.notOneOf.Gives "$nin" := by
  intro column v p
  constructor
  · intro h
    cases v with
    | array vs =>
      cases h
      exact leaf_notOneOf column vs
    | _ => cases h
  · intro h
    rcases leaf_cases h with ⟨op, hlisted, -⟩ | ⟨vs, rfl, ⟨hsymbol, -⟩ | ⟨-, rfl⟩⟩
    · simp [comparisonSymbols, orderings] at hlisted
    · simp at hsymbol
    · rfl

/-! ## the operators of a registry -/

namespace Registry

/-- Every operator has a symbol in the proper form and gives the leaves of that symbol. -/
def GivesLeaves (r : Registry) : Prop :=
  ∀ symbol op, r.resolve? symbol = some op → isOperatorSymbol symbol = true ∧ op.Gives symbol

theorem GivesLeaves.insert {r : Registry} (h : r.GivesLeaves) {symbol : String} {op : Operator}
    (hsymbol : isOperatorSymbol symbol = true) (hop : op.Gives symbol) :
    (r.insert symbol op).GivesLeaves := by
  intro other o ho
  by_cases hs : other = symbol
  · subst hs
    rw [resolve?_insert_self] at ho
    cases ho
    exact ⟨hsymbol, hop⟩
  · rw [resolve?_insert_of_ne r symbol other op hs] at ho
    exact h other o ho

theorem GivesLeaves.insert_comparison {r : Registry} (h : r.GivesLeaves) {symbol : String}
    {op : Comparison} (listed : (symbol, op) ∈ comparisonSymbols) :
    (r.insert symbol (.comparing op)).GivesLeaves := by
  have hsymbols : (comparisonSymbols.map Prod.fst).all isOperatorSymbol = true := by decide
  have hsymbol := List.all_eq_true.mp hsymbols symbol (List.mem_map_of_mem listed)
  exact h.insert hsymbol (gives_comparing listed)

theorem givesLeaves_standard : standard.GivesLeaves := by
  have hempty : empty.GivesLeaves := nofun
  have heq := hempty.insert_comparison (by decide : ("$eq", .eq) ∈ comparisonSymbols)
  exact heq.insert (by decide) gives_oneOf

theorem GivesLeaves.withComparisons {r : Registry} (h : r.GivesLeaves) :
    r.withComparisons.GivesLeaves := by
  have hne := h.insert_comparison (by decide : ("$ne", .ne) ∈ comparisonSymbols)
  have hgt := hne.insert_comparison (by decide : ("$gt", .gt) ∈ comparisonSymbols)
  have hge := hgt.insert_comparison (by decide : ("$gte", .ge) ∈ comparisonSymbols)
  have hlt := hge.insert_comparison (by decide : ("$lt", .lt) ∈ comparisonSymbols)
  have hle := hlt.insert_comparison (by decide : ("$lte", .le) ∈ comparisonSymbols)
  exact hle.insert (by decide) gives_notOneOf

end Registry

theorem Clause.build_eq_ok_iff (schema : Schema) {ops : Registry} (hops : ops.GivesLeaves)
    (c : Clause) (p : Predicate) :
    c.build schema ops = .ok p ↔ c.Leaf schema ops p := by
  cases c with
  | bare field =>
    rw [build, Leaf]
    cases schema field <;> simp
  | apply field symbol operand =>
    rw [build, Leaf]
    cases schema field with
    | none => simp
    | some column =>
      simp only [bind_eq_ok_iff, resolveOperator_ok_iff, applyOperator_ok_iff, Option.some.injEq,
        exists_eq_left', Registry.contains, Option.isSome_iff_exists]
      constructor
      · rintro ⟨op, ⟨-, hres⟩, hp⟩
        exact ⟨⟨op, hres⟩, ((hops symbol op hres).2 column operand p).mp hp⟩
      · rintro ⟨⟨op, hres⟩, hleaf⟩
        obtain ⟨hsymbol, hgives⟩ := hops symbol op hres
        exact ⟨op, ⟨hsymbol, hres⟩, (hgives column operand p).mpr hleaf⟩

/-! ## putting leaves together -/

/-- One predicate as it is, or a group of at least two. -/
inductive Joined (join : List Predicate → Predicate) : List Predicate → Predicate → Prop
  | single (p : Predicate) : Joined join [p] p
  | several (p q : Predicate) (ps : List Predicate) :
      Joined join (p :: q :: ps) (join (p :: q :: ps))

theorem joined_iff (join : List Predicate → Predicate) (ps : List Predicate) (p : Predicate) :
    Joined join ps p ↔ combine join ps = some p := by
  constructor
  · intro h
    cases h <;> rfl
  · intro h
    rcases ps with _ | ⟨a, _ | ⟨b, ps⟩⟩
    · cases h
    · cases h
      exact .single p
    · cases h
      exact .several a b ps

/-- The conjunction of a rule: one leaf for each of its clauses, in order. -/
def Rule.Form (schema : Schema) (ops : Registry) (r : Rule) (p : Predicate) : Prop :=
  ∃ leaves, List.Forall₂ (Clause.Leaf schema ops) r.clauses leaves ∧ Joined .and leaves p

/-- The filter of what the conditioned allow rules and the conditioned deny rules give. -/
inductive FilterForm (allow deny : List Predicate) : Predicate → Prop
  | nothing (noAllow : allow = []) : FilterForm allow deny (.const false)
  | plain (a : Predicate) (any : Joined .or allow a) (noDeny : deny = []) : FilterForm allow deny a
  | except (a d : Predicate) (any : Joined .or allow a) (denied : Joined .or deny d) :
      FilterForm allow deny (.and [a, .not d])

theorem filterForm_iff (allow deny : List Predicate) (p : Predicate) :
    FilterForm allow deny p ↔ filterOf allow deny = p := by
  rw [filterOf]
  constructor
  · intro h
    cases h with
    | nothing noAllow =>
      subst noAllow
      rfl
    | plain a any noDeny =>
      subst noDeny
      rw [(joined_iff _ _ _).mp any]
      rfl
    | except a d any denied => rw [(joined_iff _ _ _).mp any, (joined_iff _ _ _).mp denied]
  · intro h
    by_cases ha : allow = []
    · subst ha
      subst h
      exact .nothing rfl
    · have hany := combine_or ha
      rw [hany] at h
      by_cases hd : deny = []
      · subst hd
        subst h
        exact .plain _ ((joined_iff _ _ _).mpr hany) rfl
      · have hdenied := combine_or hd
        rw [hdenied] at h
        subst h
        exact .except _ _ ((joined_iff _ _ _).mpr hany) ((joined_iff _ _ _).mpr hdenied)

/-- A traversal of which each step is described by a relation. -/
theorem mapM_eq_ok_iff_forall₂ {ε α β : Type} {f : α → Except ε β} {R : α → β → Prop} {l : List α}
    (h : ∀ a ∈ l, ∀ b, f a = .ok b ↔ R a b) (bs : List β) :
    l.mapM f = .ok bs ↔ List.Forall₂ R l bs := by
  induction l generalizing bs with
  | nil =>
    rw [List.forall₂_nil_left_iff]
    exact ⟨fun hbs => (Except.ok.inj hbs).symm, fun hbs => congrArg Except.ok hbs.symm⟩
  | cons a l ih =>
    obtain ⟨ha, hl⟩ := List.forall_mem_cons.mp h
    rw [List.forall₂_cons_left_iff, List.mapM_cons, bind_eq_ok_iff]
    refine exists_congr fun b => ?_
    rw [bind_eq_ok_iff, ha b]
    constructor
    · rintro ⟨hb, cs, hcs, heq⟩
      exact ⟨cs, hb, (ih hl cs).mp hcs, (Except.ok.inj heq).symm⟩
    · rintro ⟨cs, hb, hcs, rfl⟩
      exact ⟨hb, cs, (ih hl cs).mpr hcs, rfl⟩

section
variable (schema : Schema) {ops : Registry}

theorem Rule.filter_eq_ok_iff (hops : ops.GivesLeaves) {r : Rule} (hr : r.conditionList ≠ [])
    (p : Predicate) : r.filter schema ops = .ok p ↔ r.Form schema ops p := by
  rw [filter, map_eq_ok_iff, Form]
  refine exists_congr fun leaves => ?_
  rw [mapM_eq_ok_iff_forall₂ fun c _ => c.build_eq_ok_iff schema hops]
  refine and_congr_right fun hleaves => ?_
  have hne : leaves ≠ [] := by
    rintro rfl
    exact hr ((Conditions.clauses_eq_nil_iff _).mp (List.forall₂_nil_right_iff.mp hleaves))
  rw [joined_iff, combine_and hne, Option.some.injEq]

theorem mapM_filter_eq_ok_iff (hops : ops.GivesLeaves) (rules : List Rule) (ps : List Predicate) :
    (conditioned rules).mapM (Rule.filter schema ops) = .ok ps ↔
      List.Forall₂ (Rule.Form schema ops) (conditioned rules) ps :=
  mapM_eq_ok_iff_forall₂ (fun r hr =>
    r.filter_eq_ok_iff schema hops ((mem_conditioned rules r).mp hr).2) ps

end

/-! ## what never occurs -/

namespace Predicate

mutual

/-- There is no group of fewer than two parts, no membership in nothing, no equality with null and
no constant true. -/
def Tidy : Predicate → Prop
  | .const b => b = false
  | .compare _ op v => op = .eq ∨ op = .ne → v.isNull = false
  | .isNull _ _ => True
  | .inList _ vs => vs ≠ []
  | .and parts => 2 ≤ parts.length ∧ TidyAll parts
  | .or parts => 2 ≤ parts.length ∧ TidyAll parts
  | .not inner => Tidy inner

def TidyAll : List Predicate → Prop
  | [] => True
  | p :: ps => Tidy p ∧ TidyAll ps

end

theorem tidyAll_iff (ps : List Predicate) : TidyAll ps ↔ ∀ p ∈ ps, p.Tidy := by
  induction ps with
  | nil => exact ⟨fun _ => nofun, fun _ => trivial⟩
  | cons p ps ih => rw [TidyAll, ih, List.forall_mem_cons]

end Predicate

theorem Operator.Leaf.tidy {column : Column} {symbol : String} {v : Value} {p : Predicate}
    (h : Operator.Leaf column symbol v p) : p.Tidy := by
  cases h with
  | equal v known => exact fun _ => known
  | unequal v known => exact fun _ => known
  | ordering symbol op v listed =>
    intro hop
    simp only [orderings, List.mem_cons, Prod.mk.injEq, List.not_mem_nil, or_false] at listed
    rcases listed with ⟨-, rfl⟩ | ⟨-, rfl⟩ | ⟨-, rfl⟩ | ⟨-, rfl⟩ <;> simp at hop
  | member v vs => exact List.cons_ne_nil v vs
  | noMember v vs => exact List.cons_ne_nil v vs
  | _ => trivial

theorem Joined.tidy {join : List Predicate → Predicate} {ps : List Predicate} {p : Predicate}
    (h : Joined join ps p) (hps : ∀ q ∈ ps, q.Tidy)
    (hjoin : ∀ qs, 2 ≤ qs.length → Predicate.TidyAll qs → (join qs).Tidy) : p.Tidy := by
  cases h with
  | single p => exact hps p List.mem_cons_self
  | several a b ps => exact hjoin _ (by simp) ((Predicate.tidyAll_iff _).mpr hps)

theorem forall_of_forall₂ {α β : Type} {R : α → β → Prop} {P : β → Prop} {l : List α} {bs : List β}
    (h : List.Forall₂ R l bs) (hP : ∀ a b, R a b → P b) : ∀ b ∈ bs, P b := by
  induction h with
  | nil => exact nofun
  | cons head _ ih => exact List.forall_mem_cons.mpr ⟨hP _ _ head, ih⟩

theorem Rule.Form.tidy {schema : Schema} {ops : Registry} {r : Rule} {p : Predicate}
    (h : r.Form schema ops p) : p.Tidy := by
  obtain ⟨leaves, hleaves, hjoined⟩ := h
  have hleaf : ∀ c q, Clause.Leaf schema ops c q → q.Tidy := by
    intro c q hq
    cases c with
    | bare field => exact hq.elim
    | apply field symbol operand =>
      obtain ⟨column, -, -, hop⟩ := hq
      exact hop.tidy
  exact hjoined.tidy (forall_of_forall₂ hleaves hleaf) fun _ hlen hall => ⟨hlen, hall⟩

theorem FilterForm.tidy {allow deny : List Predicate} {p : Predicate}
    (h : FilterForm allow deny p) (hallow : ∀ q ∈ allow, q.Tidy) (hdeny : ∀ q ∈ deny, q.Tidy) :
    p.Tidy := by
  have hor : ∀ qs, 2 ≤ qs.length → Predicate.TidyAll qs → (Predicate.or qs).Tidy :=
    fun _ hlen hall => ⟨hlen, hall⟩
  cases h with
  | nothing noAllow => rfl
  | plain a any noDeny => exact any.tidy hallow hor
  | except a d any denied =>
    have ha : a.Tidy := any.tidy hallow hor
    have hd : (Predicate.not d).Tidy := denied.tidy hdeny hor
    exact ⟨Nat.le_refl 2, ha, hd, trivial⟩

/-! ## the form of a filter -/

/-- **No condition is dropped, repeated or moved.** With the standard operators, or these and the
comparisons, a compilation gives exactly the predicate whose leaves are those of the clauses of the
conditioned rules, in order, joined only where there are two parts or more. It is tidy. -/
theorem compile_eq_ok_iff_form (schema : Schema) (comparisons : Bool) (rules : List Rule)
    (p : Predicate) :
    let ops := if comparisons then Registry.standard.withComparisons else .standard
    ((compile schema ops rules).result = .ok p ↔ ∃ allow deny,
      List.Forall₂ (Rule.Form schema ops) (conditioned (allowing rules)) allow ∧
      List.Forall₂ (Rule.Form schema ops) (conditioned (denying rules)) deny ∧
      FilterForm allow deny p) ∧
    ((compile schema ops rules).result = .ok p → p.Tidy) := by
  intro ops
  have hops : ops.GivesLeaves := by
    cases comparisons with
    | false => exact Registry.givesLeaves_standard
    | true => exact Registry.givesLeaves_standard.withComparisons
  have hform : (compile schema ops rules).result = .ok p ↔ ∃ allow deny,
      List.Forall₂ (Rule.Form schema ops) (conditioned (allowing rules)) allow ∧
      List.Forall₂ (Rule.Form schema ops) (conditioned (denying rules)) deny ∧
      FilterForm allow deny p := by
    rw [compile_eq_ok_iff]
    simp only [mapM_filter_eq_ok_iff schema hops, filterForm_iff]
  refine ⟨hform, fun h => ?_⟩
  obtain ⟨allow, deny, hallow, hdeny, hfilter⟩ := hform.mp h
  exact hfilter.tidy (forall_of_forall₂ hallow fun _ _ hr => hr.tidy)
    (forall_of_forall₂ hdeny fun _ _ hr => hr.tidy)

end AccessFilter
