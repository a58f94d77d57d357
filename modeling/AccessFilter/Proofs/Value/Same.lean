import AccessFilter.Proofs.Value.Fields
import AccessFilter.Proofs.Value.Number
import Mathlib.Data.List.Forall2

/-!
# The same value, part by part

The parts of a value are its items or the values of its fields. Two arrays are the same when their
items are, position by position, and two objects when the same keys lead to the same values; neither
the order of the fields nor a field hidden behind an earlier one of its key has a say.

* `Value.parts`, `Value.byParts`   the parts of a value, and induction over them;
* `same_array_iff`, `same_object_iff`   the same container, from its parts;
* `same_refl`, `same_comm`         every value is the same as itself, and in either direction.
-/

namespace AccessFilter

/-! ## parts -/

/-- The items of an array, or the values of the fields of an object. -/
def Value.parts : Value → List Value
  | .array items => items
  | .object fields => fields.map (·.2)
  | _ => []

theorem Value.sizeOf_lt_of_mem_parts {v p : Value} (h : p ∈ v.parts) : sizeOf p < sizeOf v := by
  cases v with
  | array items =>
    have hlt : sizeOf p < sizeOf items := List.sizeOf_lt_of_mem h
    rw [Value.array.sizeOf_spec]
    omega
  | object fields =>
    obtain ⟨f, hf, rfl⟩ := List.mem_map.mp h
    have hlt := List.sizeOf_lt_of_mem hf
    have hpair : sizeOf f = 1 + sizeOf f.1 + sizeOf f.2 := by
      cases f
      rfl
    rw [Value.object.sizeOf_spec]
    omega
  | null => cases h
  | bool b => cases h
  | number n => cases h
  | string s => cases h

/-- What a value inherits from its parts holds of all values. -/
theorem Value.byParts {motive : Value → Prop}
    (step : ∀ v, (∀ p ∈ v.parts, motive p) → motive v) (v : Value) : motive v :=
  step v fun p _ => Value.byParts step p
termination_by sizeOf v
decreasing_by
  rename_i h
  exact sizeOf_lt_of_mem_parts h

theorem Fields.mem_parts_of_find? {key : String} {fields : Fields Value} {v : Value}
    (h : find? key fields = some v) : v ∈ (Value.object fields).parts := by
  induction fields with
  | nil => cases h
  | cons f rest ih =>
    obtain ⟨k, w⟩ := f
    rw [find?] at h
    split at h
    · cases h
      exact List.mem_cons_self
    · exact List.mem_cons_of_mem w (ih h)

theorem optionRel_iff {α β : Type} {R : α → β → Prop} (x : Option α) (y : Option β) :
    Option.Rel R x y ↔ (∀ a, x = some a → ∃ b, y = some b ∧ R a b) ∧ (x = none → y = none) := by
  cases x <;> cases y <;> simp

theorem optionRel_swap {α β : Type} {R : α → β → Prop} {S : β → α → Prop} {x : Option α}
    {y : Option β} (h : Option.Rel R x y) (swap : ∀ a, x = some a → ∀ b, R a b → S b a) :
    Option.Rel S y x := by
  cases h with
  | none => exact .none
  | some hr => exact .some (swap _ rfl _ hr)

theorem Number.same_comm (m n : Number) : m.same n = n.same m := by
  cases m <;> cases n <;> first | rfl | exact BEq.comm

namespace Value

/-! ## the same container -/

theorem sameItems_iff (as bs : List Value) :
    sameItems as bs = true ↔ List.Forall₂ (fun a b => same a b = true) as bs := by
  induction as generalizing bs with
  | nil => cases bs <;> simp [sameItems]
  | cons a as ih =>
    cases bs with
    | nil => simp [sameItems]
    | cons b bs => rw [sameItems, Bool.and_eq_true, ih, List.forall₂_cons]

theorem same_array_iff (as bs : List Value) :
    same (.array as) (.array bs) = true ↔ List.Forall₂ (fun a b => same a b = true) as bs := by
  rw [same, sameItems_iff]

theorem sameFields_cons (seen : List String) (key : String) (v : Value) (rest gs : Fields Value) :
    sameFields seen ((key, v) :: rest) gs = true ↔
      (key ∈ seen ∨ ∃ w, Fields.find? key gs = some w ∧ same v w = true) ∧
        sameFields (key :: seen) rest gs = true := by
  rw [sameFields, Bool.and_eq_true, Bool.or_eq_true, List.contains_iff_mem]
  cases Fields.find? key gs <;> simp

/-- Of the fields with one key only the first counts, and a key already seen does not count at all. -/
theorem sameFields_iff (seen : List String) (fs gs : Fields Value) :
    sameFields seen fs gs = true ↔
      ∀ key ∉ seen, ∀ v, Fields.find? key fs = some v →
        ∃ w, Fields.find? key gs = some w ∧ same v w = true := by
  induction fs generalizing seen with
  | nil => simp [sameFields, Fields.find?]
  | cons f rest ih =>
    obtain ⟨k, v⟩ := f
    rw [sameFields_cons, ih]
    constructor
    · rintro ⟨hk, hrest⟩ key hkey u hu
      by_cases h : k = key
      · subst h
        rw [Fields.find?, if_pos rfl] at hu
        cases hu
        exact hk.resolve_left hkey
      · rw [Fields.find?, if_neg h] at hu
        exact hrest key (List.not_mem_cons_of_ne_of_not_mem (Ne.symm h) hkey) u hu
    · intro hall
      refine ⟨?_, fun key hkey u hu => ?_⟩
      · by_cases hk : k ∈ seen
        · exact .inl hk
        · exact .inr (hall k hk v (if_pos rfl))
      · obtain ⟨hne, hseen⟩ := not_or.mp (fun h => hkey (List.mem_cons.mpr h))
        exact hall key hseen u ((if_neg (Ne.symm hne)).trans hu)

/-- Objects are the same when every key leads to nothing in both or to the same value in both. -/
theorem same_object_iff (fs gs : Fields Value) :
    same (.object fs) (.object gs) = true ↔
      ∀ key, Option.Rel (fun v w => same v w = true) (Fields.find? key fs) (Fields.find? key gs) := by
  have hback : (gs.all fun g => (Fields.find? g.1 fs).isSome) = true ↔
      ∀ key, Fields.find? key fs = none → Fields.find? key gs = none := by
    simp only [List.all_eq_true, Option.isSome_iff_ne_none, Fields.find?_eq_none_iff _ gs,
      Fields.keys, List.mem_map]
    constructor
    · rintro hall key hnone ⟨g, hg, rfl⟩
      exact hall g hg hnone
    · intro hall g hg hnone
      exact hall g.1 hnone ⟨g, hg, rfl⟩
  rw [same, Bool.and_eq_true, sameFields_iff, hback]
  simp only [List.not_mem_nil, not_false_eq_true, forall_const, ← forall_and, optionRel_iff]

/-! ## equivalence -/

theorem same_refl (v : Value) : same v v = true := by
  induction v using Value.byParts with
  | step v ih =>
    cases v with
    | null => rfl
    | bool b => exact beq_self_eq_true b
    | number n => cases n <;> exact beq_self_eq_true _
    | string s => exact beq_self_eq_true s
    | array items => exact (same_array_iff items items).mpr (List.forall₂_same.mpr ih)
    | object fields =>
      rw [same_object_iff]
      intro key
      cases hv : Fields.find? key fields with
      | none => exact .none
      | some v => exact .some (ih v (Fields.mem_parts_of_find? hv))

theorem same_symm {v w : Value} (h : same v w = true) : same w v = true := by
  induction v using Value.byParts generalizing w with
  | step v ih =>
    cases v with
    | null =>
      cases w with
      | null => rfl
      | _ => cases h
    | bool b =>
      cases w with
      | bool c =>
        show (c == b) = true
        rw [BEq.comm]
        exact h
      | _ => cases h
    | number m =>
      cases w with
      | number n =>
        show n.same m = true
        rw [n.same_comm]
        exact h
      | _ => cases h
    | string s =>
      cases w with
      | string t =>
        show (t == s) = true
        rw [BEq.comm]
        exact h
      | _ => cases h
    | array as =>
      cases w with
      | array bs =>
        obtain ⟨hlength, hget⟩ := List.forall₂_iff_get.mp ((same_array_iff as bs).mp h)
        rw [same_array_iff, List.forall₂_iff_get]
        refine ⟨hlength.symm, fun i hb ha => ?_⟩
        exact ih _ (List.get_mem as ⟨i, ha⟩) (hget i ha hb)
      | _ => cases h
    | object fs =>
      cases w with
      | object gs =>
        rw [same_object_iff] at h ⊢
        intro key
        apply optionRel_swap (h key)
        intro v hv w hvw
        exact ih v (Fields.mem_parts_of_find? hv) hvw
      | _ => cases h

theorem same_comm (v w : Value) : same v w = same w v :=
  Bool.eq_iff_iff.mpr ⟨same_symm, same_symm⟩

end Value

end AccessFilter
