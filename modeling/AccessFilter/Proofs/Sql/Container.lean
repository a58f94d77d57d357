import AccessFilter.Proofs.Sql.Comparison

/-!
# Equality of arrays and objects

Containers are compared part by part, but not quite as their parts are compared when they stand alone:
inside a container an integer differs from a double of the same value, and null equals null.

* `Value.Partwise`            a relation between the parts of two containers;
* `Value.Mixed`               an integer against a double;
* `same_iff`                  the same value, in terms of equality;
* `equal_iff_partwise`        when two containers are equal;
* `equal_partwise`            when this is equality of their parts;
* `equal_partwise_mixed`      the equal numbers that make unequal containers.
-/

namespace AccessFilter

namespace Value

/-! ## parts against parts -/

/-- Two arrays of one length whose items are related position by position, or two objects with the
same keys whose values are related key by key. -/
def Partwise (R : Value → Value → Prop) : Value → Value → Prop
  | .array as, .array bs => List.Forall₂ R as bs
  | .object fs, .object gs => ∀ key, Option.Rel R (Fields.find? key fs) (Fields.find? key gs)
  | _, _ => False

/-- Equality is true of two values. -/
def Equal (v w : Value) : Prop := Comparison.eq.test v w = some true

instance (v w : Value) : Decidable (v.Equal w) := inferInstanceAs (Decidable (_ = _))

/-- An integer against a double, in either place. -/
def Mixed : Value → Value → Prop
  | .number (.integer _ _), .number (.float _) => True
  | .number (.float _), .number (.integer _ _) => True
  | _, _ => False

theorem optionRel_congr {α β : Type} {R S : α → β → Prop} {x : Option α} (y : Option β)
    (h : ∀ a, x = some a → ∀ b, R a b ↔ S a b) : Option.Rel R x y ↔ Option.Rel S x y := by
  cases x <;> cases y <;> simp [h]

theorem optionRel_and {α β : Type} {R S : α → β → Prop} (x : Option α) (y : Option β) :
    Option.Rel (fun a b => R a b ∧ S a b) x y ↔ Option.Rel R x y ∧ Option.Rel S x y := by
  cases x <;> cases y <;> simp

theorem partwise_congr {R S : Value → Value → Prop} {v : Value} (w : Value)
    (h : ∀ p ∈ v.parts, ∀ q, R p q ↔ S p q) : v.Partwise R w ↔ v.Partwise S w := by
  cases v <;> cases w <;> try exact Iff.rfl
  case array.array as bs =>
    show List.Forall₂ R as bs ↔ List.Forall₂ S as bs
    rw [List.forall₂_iff_get, List.forall₂_iff_get]
    refine and_congr_right fun _ => ?_
    exact forall_congr' fun i => forall_congr' fun ha => forall_congr' fun hb =>
      h _ (List.get_mem as ⟨i, ha⟩) _
  case object.object fs gs =>
    refine forall_congr' fun key => ?_
    apply optionRel_congr
    intro p hp
    exact h p (Fields.mem_parts_of_find? hp)

theorem partwise_and (R S : Value → Value → Prop) (v w : Value) :
    v.Partwise (fun p q => R p q ∧ S p q) w ↔ v.Partwise R w ∧ v.Partwise S w := by
  unfold Partwise
  cases v <;> cases w <;> try exact (and_self_iff).symm
  case array.array as bs =>
    show List.Forall₂ _ as bs ↔ List.Forall₂ R as bs ∧ List.Forall₂ S as bs
    simp only [List.forall₂_iff_get]
    constructor
    · rintro ⟨hlength, hall⟩
      exact ⟨⟨hlength, fun i ha hb => (hall i ha hb).1⟩, hlength, fun i ha hb => (hall i ha hb).2⟩
    · rintro ⟨⟨hlength, hR⟩, -, hS⟩
      exact ⟨hlength, fun i ha hb => ⟨hR i ha hb, hS i ha hb⟩⟩
  case object.object fs gs =>
    simp only [optionRel_and, forall_and]

/-! ## the same value -/

theorem number_same_iff (m n : Number) :
    m.same n = true ↔ m.order n = .eq ∧ ¬ Mixed (.number m) (.number n) := by
  cases m with
  | integer i hi =>
    cases n with
    | integer j hj => simp [Number.same, Number.order_integer, Mixed]
    | float y => simp [Number.same, Mixed]
  | float x =>
    cases n with
    | integer j hj => simp [Number.same, Mixed]
    | float y =>
      rw [Number.order_float_left]
      simp [Number.same, Number.scaled, Mixed]

/-- The same value: two nulls, or equal values that are no integer against a double. -/
theorem same_iff (v w : Value) :
    same v w = true ↔ v.kind = .null ∧ w.kind = .null ∨ v.Equal w ∧ ¬ v.Mixed w := by
  unfold Equal Comparison.test equal kind
  cases v <;> cases w
  case number.number m n =>
    rw [same, number_same_iff]
    simp
  all_goals simp [same, Mixed]

theorem equal_array_iff (as bs : List Value) :
    (Value.array as).Equal (.array bs) ↔ same (.array as) (.array bs) = true :=
  Option.some_inj

theorem equal_object_iff (fs gs : Fields Value) :
    (Value.object fs).Equal (.object gs) ↔ same (.object fs) (.object gs) = true :=
  Option.some_inj

/-- Containers are equal when their parts are the same. -/
theorem equal_iff_partwise_same {v : Value} (container : v.kind = .array ∨ v.kind = .object)
    (w : Value) : v.Equal w ↔ v.Partwise (fun p q => same p q = true) w := by
  cases v with
  | array as =>
    cases w with
    | array bs => rw [equal_array_iff, same_array_iff, Partwise]
    | _ => exact ⟨nofun, nofun⟩
  | object fs =>
    cases w with
    | object gs => rw [equal_object_iff, same_object_iff, Partwise]
    | _ => exact ⟨nofun, nofun⟩
  | _ => rcases container with h | h <;> cases h

theorem equal_object_perm {fs fs' : Fields Value} (nodup : (Fields.keys fs).Nodup)
    (h : fs.Perm fs') (w : Value) : (Value.object fs).Equal w ↔ (Value.object fs').Equal w := by
  rw [equal_iff_partwise_same (.inr rfl), equal_iff_partwise_same (.inr rfl)]
  unfold Partwise
  cases w with
  | object gs => simp only [Fields.find?_perm nodup h]
  | _ => exact Iff.rfl

theorem equal_iff_partwise {v : Value} (container : v.kind = .array ∨ v.kind = .object) (w : Value) :
    v.Equal w ↔
      v.Partwise (fun p q => p.kind = .null ∧ q.kind = .null ∨ p.Equal q ∧ ¬ p.Mixed q) w := by
  rw [equal_iff_partwise_same container]
  exact partwise_congr w fun p _ q => same_iff p q

theorem equal_iff_of_parts {v : Value} (container : v.kind = .array ∨ v.kind = .object)
    (parts : ∀ p ∈ v.parts, p.kind ≠ .null) (w : Value) :
    v.Equal w ↔ v.Partwise Equal w ∧ v.Partwise (fun p q => ¬ p.Mixed q) w := by
  rw [equal_iff_partwise container, ← partwise_and]
  exact partwise_congr w fun p hp q => or_iff_right fun hnull => parts p hp hnull.1

/-- **Equality of containers.** A container equals another when they have the same shape and, part
against part, hold two nulls, or equal values that are no integer against a double; the order of the
fields of an object does not matter. So where no null is a part, equality of containers is equality of
their parts with one exception: the parts are equal, and an integer among them meets a double. -/
theorem equal_partwise {v : Value} (container : v.kind = .array ∨ v.kind = .object) (w : Value) :
    (v.Equal w ↔
      v.Partwise (fun p q => p.kind = .null ∧ q.kind = .null ∨ p.Equal q ∧ ¬ p.Mixed q) w) ∧
    (∀ fs fs' : Fields Value, v = .object fs → (Fields.keys fs).Nodup → fs.Perm fs' →
      (v.Equal w ↔ (Value.object fs').Equal w)) ∧
    ((∀ p ∈ v.parts, p.kind ≠ .null) →
      ((v.Equal w ↔ v.Partwise Equal w) ↔
        (v.Partwise Equal w → v.Partwise (fun p q => ¬ p.Mixed q) w))) := by
  refine ⟨equal_iff_partwise container w, fun fs fs' hv nodup h => ?_, fun parts => ?_⟩
  · rw [hv]
    exact equal_object_perm nodup h w
  · rw [equal_iff_of_parts container parts]
    exact and_iff_left_iff_imp

/-- Two lists of a number and an object whose fields have changed places, a list with a null among
them: the nulls are parts of parts, and no integer meets a double. -/
theorem equal_partwise_nested :
    let one : Value := .number (.integer 1 (by decide))
    let fs : Fields Value := [("a", .bool true), ("b", .array [.null])]
    let gs : Fields Value := [("b", .array [.null]), ("a", .bool true)]
    let v : Value := .array [one, .object fs]
    let w : Value := .array [one, .object gs]
    v.kind = .array ∧ (∀ p ∈ v.parts, p.kind ≠ .null) ∧ (Fields.keys fs).Nodup ∧ fs.Perm gs ∧
      v.Partwise Equal w ∧ v.Equal w := by
  intro one fs gs v w
  have nodup : (Fields.keys fs).Nodup := by decide
  have moved : fs.Perm gs := .swap _ _ _
  have parts : ∀ p ∈ v.parts, p.kind ≠ .null :=
    List.forall_mem_cons.mpr ⟨nofun, List.forall_mem_singleton.mpr nofun⟩
  obtain ⟨-, horder, -⟩ := equal_partwise (v := .object fs) (.inr rfl) (.object gs)
  obtain ⟨-, -, hexact⟩ := equal_partwise (v := v) (.inl rfl) w
  have hobject : (Value.object fs).Equal (.object gs) :=
    (horder fs gs rfl nodup moved).mpr (equal_self (v := .object gs) nofun)
  have hone : one.Equal one := equal_self (v := one) nofun
  have hequal : v.Partwise Equal w := .cons hone (.cons hobject .nil)
  have hunmixed : v.Partwise (fun p q => ¬ p.Mixed q) w := .cons id (.cons id .nil)
  exact ⟨rfl, parts, nodup, moved, hequal, ((hexact parts).mpr fun _ => hunmixed).mpr hequal⟩

/-- The integer and the double 1 are equal, the containers that hold nothing else are not. -/
theorem equal_partwise_mixed :
    let one : Value := .number (.integer 1 (by decide))
    let double : Value :=
      .number (.float ⟨false, 4503599627370496, 1022, by decide, by decide, by decide⟩)
    one.Equal double ∧
      (Value.array [one]).Partwise Equal (.array [double]) ∧
      ¬ (Value.array [one]).Equal (.array [double]) ∧
      (Value.object [("k", one)]).Partwise Equal (.object [("k", double)]) ∧
      ¬ (Value.object [("k", one)]).Equal (.object [("k", double)]) := by
  intro one double
  have hequal : one.Equal double := by decide +kernel
  refine ⟨hequal, .cons hequal .nil, by decide, fun key => ?_, by decide⟩
  by_cases h : "k" = key
  · subst h
    exact .some hequal
  · simp only [Fields.find?, if_neg h]
    exact .none

end Value

end AccessFilter
