import AccessFilter.Proofs.Sql.Group

/-!
# Missing data and decisions

Unknown is below true and below false: it may still become either. A row is below another when its
cells are null or those of the other. A predicate that never asks whether a cell is null keeps this
order, so what is decided with data missing stays decided when the data come in.

* `Truth.Below`, `Row.Below`   the two orders of information;
* `Predicate.AsksNoNull`       no part asks whether a cell is null;
* `member_below`, `test_below`   the leaves keep the order: on a null cell they are unknown;
* `evaluate_of_below`          so does every predicate made of them.
-/

namespace AccessFilter

/-! ## the order of information -/

/-- Unknown, or the same truth. -/
def Truth.Below (s t : Truth) : Prop := ∀ b, s = some b → t = some b

/-- Every cell is null or missing, or that of the other row. -/
def Row.Below (row row' : Row) : Prop :=
  ∀ name, (row.cell name).isNull = true ∨ row.cell name = row'.cell name

namespace Truth

theorem Below.refl (t : Truth) : t.Below t := fun _ h => h

theorem below_of_unknown {s : Truth} (h : s = none) (t : Truth) : s.Below t := by
  intro b hb
  rw [h] at hb
  cases hb

theorem Below.not {s t : Truth} (h : s.Below t) : s.not.Below t.not := by
  intro b hb
  obtain ⟨c, hs, hc⟩ := Option.map_eq_some_iff.mp hb
  exact Option.map_eq_some_iff.mpr ⟨c, h c hs, hc⟩

theorem Below.and {s s' t t' : Truth} (hs : s.Below s') (ht : t.Below t') :
    (s.and t).Below (s'.and t') := by
  intro b hb
  cases b with
  | true =>
    obtain ⟨h, h'⟩ := (and_eq_true_iff s t).mp hb
    exact (and_eq_true_iff s' t').mpr ⟨hs _ h, ht _ h'⟩
  | false =>
    rcases (and_eq_false_iff s t).mp hb with h | h
    · exact (and_eq_false_iff s' t').mpr (.inl (hs _ h))
    · exact (and_eq_false_iff s' t').mpr (.inr (ht _ h))

theorem Below.or {s s' t t' : Truth} (hs : s.Below s') (ht : t.Below t') :
    (s.or t).Below (s'.or t') := by
  intro b hb
  cases b with
  | true =>
    rcases (or_eq_true_iff s t).mp hb with h | h
    · exact (or_eq_true_iff s' t').mpr (.inl (hs _ h))
    · exact (or_eq_true_iff s' t').mpr (.inr (ht _ h))
  | false =>
    obtain ⟨h, h'⟩ := (or_eq_false_iff s t).mp hb
    exact (or_eq_false_iff s' t').mpr ⟨hs _ h, ht _ h'⟩

end Truth

/-! ## leaves -/

/-- A comparison with a null cell is unknown, whatever the operator and the operand. -/
theorem test_null (op : Comparison) (v : Value) : op.test .null v = none := by
  cases op <;> cases v <;> rfl

/-- Membership of a null cell is unknown as soon as the list has a value. -/
theorem member_null (v : Value) (vs : List Value) : Truth.member .null (v :: vs) = none := by
  induction vs generalizing v with
  | nil => rw [Truth.member_cons, test_null]; rfl
  | cons w ws ih => rw [Truth.member_cons, test_null, ih w]; rfl

theorem eq_null_of_isNull {v : Value} (h : v.isNull = true) : v = .null := by
  cases v <;> first | rfl | cases h

section
variable {cell cell' : Value} (h : cell.isNull = true ∨ cell = cell')
include h

theorem test_below (op : Comparison) (v : Value) : (op.test cell v).Below (op.test cell' v) := by
  rcases h with h | rfl
  · rw [eq_null_of_isNull h]
    exact Truth.below_of_unknown (test_null op v) _
  · exact .refl _

theorem member_below (vs : List Value) :
    (Truth.member cell vs).Below (Truth.member cell' vs) := by
  rcases h with h | rfl
  · rw [eq_null_of_isNull h]
    cases vs with
    | nil => exact .refl _
    | cons v vs => exact Truth.below_of_unknown (member_null v vs) _
  · exact .refl _

end

/-! ## predicates -/

namespace Predicate

mutual

/-- No part asks whether a cell is null. -/
def AsksNoNull : Predicate → Prop
  | .const _ => True
  | .compare _ _ _ => True
  | .isNull _ _ => False
  | .inList _ _ => True
  | .and parts => NoneAsksNull parts
  | .or parts => NoneAsksNull parts
  | .not inner => AsksNoNull inner

def NoneAsksNull : List Predicate → Prop
  | [] => True
  | p :: ps => AsksNoNull p ∧ NoneAsksNull ps

end

section
variable {row row' : Row}

mutual

theorem evaluate_below (h : row.Below row') : ∀ p : Predicate, p.AsksNoNull →
    (p.evaluate row).Below (p.evaluate row')
  | .const _, _ => by
    rw [evaluate, evaluate]
    exact .refl _
  | .compare c op v, _ => by
    rw [evaluate, evaluate]
    exact test_below (h c.name) op v
  | .isNull _ _, hp => hp.elim
  | .inList c vs, _ => by
    rw [evaluate, evaluate]
    exact member_below (h c.name) vs
  | .and parts, hp => by
    rw [evaluate_and, evaluate_and]
    exact evaluateAll_below h parts hp
  | .or parts, hp => by
    rw [evaluate_or, evaluate_or]
    exact evaluateAny_below h parts hp
  | .not inner, hp => by
    rw [evaluate, evaluate]
    exact (evaluate_below h inner hp).not

theorem evaluateAll_below (h : row.Below row') : ∀ ps : List Predicate, NoneAsksNull ps →
    (evaluateAll row ps).Below (evaluateAll row' ps)
  | [], _ => by
    rw [evaluateAll_nil, evaluateAll_nil]
    exact .refl _
  | p :: ps, hps => by
    rw [evaluateAll_cons, evaluateAll_cons]
    exact (evaluate_below h p hps.1).and (evaluateAll_below h ps hps.2)

theorem evaluateAny_below (h : row.Below row') : ∀ ps : List Predicate, NoneAsksNull ps →
    (evaluateAny row ps).Below (evaluateAny row' ps)
  | [], _ => by
    rw [evaluateAny_nil, evaluateAny_nil]
    exact .refl _
  | p :: ps, hps => by
    rw [evaluateAny_cons, evaluateAny_cons]
    exact (evaluate_below h p hps.1).or (evaluateAny_below h ps hps.2)

end

end

/-- **A decision made with data missing survives learning them.** What a predicate without null tests
says of a row it says of every row that fills in null or missing cells of that row. -/
theorem evaluate_of_below (p : Predicate) (hp : p.AsksNoNull) (row row' : Row)
    (h : row.Below row') (b : Bool) (decided : p.evaluate row = some b) :
    p.evaluate row' = some b :=
  evaluate_below h p hp b decided

/-- The state is missing and the rank is null. The list holds a null, so on the full row membership
stays unknown; the conjunction is false by the owner, and its negation true, on both rows. -/
theorem evaluate_of_below_negated :
    let p : Predicate := .not (.and [.inList ⟨"sites", "state"⟩ [.null, .string "open"],
      .or [.compare ⟨"sites", "rank"⟩ .ne (.string "a"), .compare ⟨"sites", "owner"⟩ .eq .null],
      .compare ⟨"sites", "owner"⟩ .eq (.string "u1")])
    let row : Row := [("owner", .string "u2"), ("rank", .null)]
    let row' : Row := [("state", .string "shut"), ("rank", .string "a"), ("owner", .string "u2")]
    p.AsksNoNull ∧ row.Below row' ∧ p.evaluate row = some true ∧ p.evaluate row' = some true := by
  intro p row row'
  have hp : p.AsksNoNull := ⟨trivial, ⟨trivial, trivial, trivial⟩, trivial, trivial⟩
  have hbelow : row.Below row' := by
    intro name
    by_cases howner : name = "owner"
    · subst howner
      exact .inr rfl
    · refine .inl ?_
      have hcell : row.cell name = if "rank" = name then .null else .null := by
        rw [Row.cell, Fields.find?, if_neg (Ne.symm howner), Fields.find?]
        split <;> rfl
      rw [hcell, ite_self]
      rfl
  have hrow : p.evaluate row = some true := rfl
  exact ⟨hp, hbelow, hrow, evaluate_of_below p hp row row' hbelow true hrow⟩

end Predicate

end AccessFilter
