import AccessFilter.Proofs.Filter.Clause
import AccessFilter.Proofs.Operator.Builtin
import AccessFilter.Proofs.Sql.Blank
import Mathlib.Data.List.Forall2

/-!
# The text of a filter tells nothing of the values

Two rule lists of the same shape name the same fields and operators at the same places and differ in
the values of their conditions. A built-in operator asks of a value at most whether it is null or how
many items it has, and that belongs to the shape. So the two lists fail for the same reason, or give
filters with the same text.

* `Operator.SameShape`     what an operator may tell apart in its operand;
* `Rule.SameShape`         two rules that differ in the values of their conditions;
* `blank_compile`          a compilation, blanked out, as that of its parts;
* `text_of_sameShape`      rule lists of the same shape have the same text.
-/

namespace AccessFilter

/-! ## traversals -/

section
variable {ε α α' β γ : Type}

theorem map_mapM (f : α → Except ε β) (g : β → γ) (l : List α) :
    (l.mapM f).map (List.map g) = l.mapM fun a => (f a).map g := by
  induction l with
  | nil => rfl
  | cons a l ih =>
    rw [List.mapM_cons, List.mapM_cons, ← ih]
    cases f a with
    | error e => rfl
    | ok b => cases l.mapM f <;> rfl

theorem mapM_eq_of_forall₂ {f : α → Except ε β} {f' : α' → Except ε β} {l : List α}
    {l' : List α'} (h : List.Forall₂ (fun a a' => f a = f' a') l l') : l.mapM f = l'.mapM f' := by
  induction h with
  | nil => rfl
  | cons head _ ih => rw [List.mapM_cons, List.mapM_cons, head, ih]

end

/-! ## values of the same shape -/

def Value.size? : Value → Option Nat
  | .array vs => some vs.length
  | _ => none

def Value.isObject : Value → Bool
  | .object _ => true
  | _ => false

/-- Of the operand of an equality it counts whether it is null, of that of a membership whether it is
an array, and of which size. -/
structure Operator.SameShape (symbol : String) (v w : Value) : Prop where
  null : symbol = "$eq" ∨ symbol = "$ne" → v.isNull = w.isNull
  size : symbol = "$in" ∨ symbol = "$nin" → v.size? = w.size?

/-- Conditions on one field: two literals, or operator objects with the same keys in order. -/
inductive Conditions.SameShape : String × Value → String × Value → Prop
  | literal (field : String) (v w : Value) (left : v.isObject = false) (right : w.isObject = false)
      (equality : Operator.SameShape "$eq" v w) : SameShape (field, v) (field, w)
  | object (field : String) (es fs : List (String × Value))
      (entries : List.Forall₂ (fun e f => e.1 = f.1 ∧ Operator.SameShape e.1 e.2 f.2) es fs) :
      SameShape (field, .object es) (field, .object fs)

/-- Both rules allow or both deny, and they have conditions of the same shape in the same order. -/
structure Rule.SameShape (r s : Rule) : Prop where
  denies : r.denies = s.denies
  conditions : List.Forall₂ Conditions.SameShape r.conditionList s.conditionList

/-- The same operator on operands of the same shape, or nothing, for the same field. -/
inductive Clause.SameShape : Clause → Clause → Prop
  | apply (field symbol : String) (v w : Value) (operand : Operator.SameShape symbol v w) :
      SameShape (.apply field symbol v) (.apply field symbol w)
  | bare (field : String) : SameShape (.bare field) (.bare field)

theorem clausesOf_literal (field : String) {v : Value} (h : v.isObject = false) :
    clausesOf field v = [.apply field "$eq" v] := by
  cases v with
  | object fields => cases h
  | _ => rfl

theorem Conditions.SameShape.clauses {c d : String × Value} (h : Conditions.SameShape c d) :
    List.Forall₂ Clause.SameShape (clausesOf c.1 c.2) (clausesOf d.1 d.2) := by
  cases h with
  | literal field v w left right equality =>
    rw [clausesOf_literal field left, clausesOf_literal field right]
    exact .cons (.apply field "$eq" v w equality) .nil
  | object field es fs entries =>
    cases entries with
    | nil => exact .cons (.bare field) .nil
    | @cons e f es fs head tail =>
      have step : ∀ e f : String × Value, e.1 = f.1 ∧ Operator.SameShape e.1 e.2 f.2 →
          Clause.SameShape (.apply field e.1 e.2) (.apply field f.1 f.2) := by
        rintro ⟨symbol, v⟩ ⟨_, w⟩ ⟨rfl, hvw⟩
        exact .apply field symbol v w hvw
      exact .cons (step e f head) (List.rel_map step tail)

theorem Rule.SameShape.clauses {r s : Rule} (h : r.SameShape s) :
    List.Forall₂ Clause.SameShape r.clauses s.clauses :=
  List.rel_flatMap h.conditions fun _ _ hc => hc.clauses

theorem Rule.SameShape.isUnconditioned {r s : Rule} (h : r.SameShape s) :
    r.isUnconditioned = s.isUnconditioned := by
  have hc := h.conditions
  rw [Rule.isUnconditioned, Rule.isUnconditioned]
  generalize r.conditionList = cs at hc ⊢
  generalize s.conditionList = ds at hc ⊢
  cases hc <;> rfl

/-! ## operators -/

/-- A comparison that does not single out null keeps its operand as it is. -/
theorem blank_comparing (column : Column) (op : Comparison) (v w : Value)
    (h : op = .eq ∨ op = .ne → v.isNull = w.isNull) :
    (Predicate.comparing column op v).blank = (Predicate.comparing column op w).blank := by
  cases op with
  | eq => cases v <;> cases w <;> first | rfl | cases h (.inl rfl)
  | ne => cases v <;> cases w <;> first | rfl | cases h (.inr rfl)
  | _ => rfl

theorem blank_oneOf (column : Column) {vs ws : List Value} (h : vs.length = ws.length) :
    (Predicate.oneOf column vs).blank = (Predicate.oneOf column ws).blank := by
  cases vs with
  | nil => rw [List.length_eq_zero_iff.mp h.symm]
  | cons v vs =>
    cases ws with
    | nil => cases h
    | cons w ws =>
      show Predicate.inList column ((v :: vs).map fun _ => .null)
        = .inList column ((w :: ws).map fun _ => .null)
      rw [List.map_const', List.map_const', h]

/-- Membership asks for an array and keeps its length. -/
theorem blank_items {f : List Value → Predicate}
    (hf : ∀ vs ws, vs.length = ws.length → (f vs).blank = (f ws).blank) (symbol : String)
    {v w : Value} (h : v.size? = w.size?) :
    ((Operator.items symbol v).map f).map Predicate.blank
      = ((Operator.items symbol w).map f).map Predicate.blank := by
  cases v with
  | array vs =>
    cases w with
    | array ws => exact congrArg Except.ok (hf vs ws (Option.some.inj h))
    | _ => cases h
  | _ =>
    cases w with
    | array ws => cases h
    | _ => rfl

/-- A built-in operator tells apart operands of different shapes only. -/
theorem Operator.Builtin.blank {symbol : String} {op : Operator} (h : Operator.Builtin symbol op)
    (column : Column) {v w : Value} (hvw : Operator.SameShape symbol v w) :
    (op column v).map Predicate.blank = (op column w).map Predicate.blank := by
  cases h with
  | equal => exact congrArg Except.ok (blank_comparing column .eq v w fun _ => hvw.null (.inl rfl))
  | unequal =>
    exact congrArg Except.ok (blank_comparing column .ne v w fun _ => hvw.null (.inr rfl))
  | ordering symbol op order =>
    refine congrArg Except.ok (blank_comparing column op v w fun hop => ?_)
    exact absurd hop (not_or.mpr order)
  | member => exact blank_items (fun _ _ => blank_oneOf column) "$in" (hvw.size (.inl rfl))
  | noMember =>
    refine blank_items (fun vs ws hlen => ?_) "$nin" (hvw.size (.inr rfl))
    rw [Predicate.blank, blank_oneOf column hlen, Predicate.blank]

/-! ## compiling -/

section
variable (schema : Schema) {ops : Registry}

theorem blank_applyOperator (field : String) (column : Column) (op : Operator) (operand : Value) :
    (applyOperator field column op operand).map Predicate.blank
      = ((op column operand).map Predicate.blank).mapError (CompileError.operator field) := by
  unfold applyOperator
  cases op column operand <;> rfl

theorem Clause.SameShape.build (hops : ops.AllBuiltin) {c d : Clause} (h : c.SameShape d) :
    (c.build schema ops).map Predicate.blank = (d.build schema ops).map Predicate.blank := by
  cases h with
  | bare field => rfl
  | apply field symbol v w operand =>
    rw [Clause.build, Clause.build]
    cases schema field with
    | none => rfl
    | some column =>
      cases hr : resolveOperator ops symbol with
      | error e => rfl
      | ok op =>
        have hop := hops symbol op ((resolveOperator_ok_iff ops symbol op).mp hr).2
        show (applyOperator field column op v).map _ = (applyOperator field column op w).map _
        rw [blank_applyOperator, blank_applyOperator, hop.blank column operand]

def Rule.blankFilter (ops : Registry) (r : Rule) : Except CompileError Predicate :=
  (r.filter schema ops).map Predicate.blank

theorem Rule.blankFilter_eq (r : Rule) :
    r.blankFilter schema ops
      = (r.clauses.mapM fun c : Clause => (c.build schema ops).map Predicate.blank).map
          Predicate.conjunction := by
  rw [blankFilter, Rule.filter, ← map_mapM]
  cases r.clauses.mapM (Clause.build schema ops) with
  | error e => rfl
  | ok ps => exact congrArg Except.ok (Predicate.blank_conjunction ps)

theorem Rule.SameShape.blankFilter (hops : ops.AllBuiltin) {r s : Rule} (h : r.SameShape s) :
    r.blankFilter schema ops = s.blankFilter schema ops := by
  have hclauses := List.Forall₂.imp
    (fun _ _ (hcd : Clause.SameShape _ _) => hcd.build schema hops) h.clauses
  rw [blankFilter_eq, blankFilter_eq, mapM_eq_of_forall₂ hclauses]

theorem blank_combine_or (ps : List Predicate) :
    (combine .or ps).map Predicate.blank = combine .or (ps.map Predicate.blank) := by
  rcases ps with _ | ⟨p, _ | ⟨q, ps⟩⟩
  · rfl
  · rfl
  · show some (Predicate.or (Predicate.blankAll (p :: q :: ps))) = _
    rw [Predicate.blankAll_eq_map]
    rfl

theorem blank_filterOf (allow deny : List Predicate) :
    (filterOf allow deny).blank
      = filterOf (allow.map Predicate.blank) (deny.map Predicate.blank) := by
  rw [filterOf, filterOf, ← blank_combine_or, ← blank_combine_or]
  cases combine .or allow with
  | none => rfl
  | some a => cases combine .or deny <;> rfl

/-- A compilation, blanked out, is put together from its filters, blanked out. -/
theorem blank_compile (rules : List Rule) :
    (compile schema ops rules).result.map Predicate.blank = do
      let allow ← (conditioned (allowing rules)).mapM (Rule.blankFilter schema ops)
      let deny ← (conditioned (denying rules)).mapM (Rule.blankFilter schema ops)
      return filterOf allow deny := by
  have group : ∀ l : List Rule, l.mapM (Rule.blankFilter schema ops)
      = (l.mapM (Rule.filter schema ops)).map (List.map Predicate.blank) :=
    fun l => (map_mapM _ _ l).symm
  rw [compile_result, group, group]
  cases (conditioned (allowing rules)).mapM (Rule.filter schema ops) with
  | error e => rfl
  | ok allow =>
    cases (conditioned (denying rules)).mapM (Rule.filter schema ops) with
    | error e => rfl
    | ok deny => exact congrArg Except.ok (blank_filterOf allow deny)

theorem blank_compile_of_sameShape (hops : ops.AllBuiltin) {rules rules' : List Rule}
    (h : List.Forall₂ Rule.SameShape rules rules') :
    (compile schema ops rules).result.map Predicate.blank
      = (compile schema ops rules').result.map Predicate.blank := by
  have group : ∀ {l l' : List Rule}, List.Forall₂ Rule.SameShape l l' →
      (conditioned l).mapM (Rule.blankFilter schema ops)
        = (conditioned l').mapM (Rule.blankFilter schema ops) := by
    intro l l' hl
    have hfilter : List.Forall₂ Rule.SameShape (conditioned l) (conditioned l') :=
      List.rel_filter (fun r s hrs => by simp [hrs.isUnconditioned]) hl
    exact mapM_eq_of_forall₂ (hfilter.imp fun _ _ hrs => hrs.blankFilter schema hops)
  have hallow : List.Forall₂ Rule.SameShape (allowing rules) (allowing rules') :=
    List.rel_filter (fun r s hrs => by simp [hrs.denies]) h
  have hdeny : List.Forall₂ Rule.SameShape (denying rules) (denying rules') :=
    List.rel_filter (fun r s hrs => by simp [hrs.denies]) h
  rw [blank_compile, blank_compile, group hallow, group hdeny]

end

/-- **The text of a filter tells nothing of the values.** With the built-in operators, rule lists of
the same shape fail for the same reason, or give filters with the same text and as many bound
values. -/
theorem text_of_sameShape (schema : Schema) (ops : Registry)
    (hops : ops = .standard ∨ ops = Registry.standard.withComparisons) (rules rules' : List Rule)
    (h : List.Forall₂ Rule.SameShape rules rules') :
    (∃ e, (compile schema ops rules).result = .error e ∧
        (compile schema ops rules').result = .error e) ∨
      ∃ p q, (compile schema ops rules).result = .ok p ∧
        (compile schema ops rules').result = .ok q ∧
        ∀ style, (p.fragment style).sql = (q.fragment style).sql ∧
          (p.fragment style).params.length = (q.fragment style).params.length := by
  have hbuiltin : ops.AllBuiltin := by
    rcases hops with rfl | rfl
    · exact Registry.allBuiltin_standard
    · exact Registry.allBuiltin_standard.withComparisons
  have hblank := blank_compile_of_sameShape schema hbuiltin h
  cases hp : (compile schema ops rules).result with
  | error e =>
    cases hq : (compile schema ops rules').result with
    | error e' =>
      rw [hp, hq] at hblank
      cases hblank
      exact Or.inl ⟨e, rfl, rfl⟩
    | ok q => rw [hp, hq] at hblank; cases hblank
  | ok p =>
    cases hq : (compile schema ops rules').result with
    | error e' => rw [hp, hq] at hblank; cases hblank
    | ok q =>
      rw [hp, hq] at hblank
      exact Or.inr ⟨p, q, rfl, rfl, Predicate.fragment_of_blank_eq (Except.ok.inj hblank)⟩

/-- A value that looks like SQL, a membership in a list of other things, and a bound of another kind
change nothing in the text. -/
theorem text_of_sameShape_hostile :
    let schema : Schema := fun field => some ⟨"sites", field⟩
    let ops := Registry.standard.withComparisons
    let rules (owner first second bound : Value) : List Rule :=
      [((Rule.allow "read" "Site").when "owner" owner).when "topic"
          (.object [("$in", .array [first, second])]),
        (Rule.deny "read" "Site").when "views" (.object [("$ne", .null), ("$lt", bound)])]
    let plain := rules (.string "u1") (.string "tech") (.string "news") (.bool true)
    let hostile := rules (.string "\" OR TRUE --") .null (.array []) (.object [("$1", .null)])
    List.Forall₂ Rule.SameShape plain hostile ∧
      ((∃ e, (compile schema ops plain).result = .error e ∧
          (compile schema ops hostile).result = .error e) ∨
        ∃ p q, (compile schema ops plain).result = .ok p ∧
          (compile schema ops hostile).result = .ok q ∧
          ∀ style, (p.fragment style).sql = (q.fragment style).sql ∧
            (p.fragment style).params.length = (q.fragment style).params.length) ∧
      (compile schema ops hostile).result.map (fun q => (q.fragment .question).sql) = .ok
        ("((\"sites\".\"owner\" = ? AND \"sites\".\"topic\" IN (?, ?)) AND " ++
          "NOT (\"sites\".\"views\" IS NOT NULL AND \"sites\".\"views\" < ?))") := by
  intro schema ops rules plain hostile
  have h : List.Forall₂ Rule.SameShape plain hostile := by
    refine .cons ⟨rfl, .cons ?_ (.cons ?_ .nil)⟩ (.cons ⟨rfl, .cons ?_ .nil⟩ .nil)
    · exact .literal _ _ _ rfl rfl ⟨fun _ => rfl, by decide⟩
    · exact .object _ _ _ (.cons ⟨rfl, by decide, fun _ => rfl⟩ .nil)
    · exact .object _ _ _ (.cons ⟨rfl, fun _ => rfl, by decide⟩
        (.cons ⟨rfl, by decide, by decide⟩ .nil))
  exact ⟨h, text_of_sameShape schema ops (.inr rfl) plain hostile h, rfl⟩

end AccessFilter
