import AccessFilter.Proofs.Sql.Algebra
import AccessFilter.Proofs.Value.Same
import Mathlib.Data.String.Basic

/-!
# The six comparisons agree with each other

Equality and order are two functions with cases of their own. Where two values have an order at all,
that is, where both are numbers, strings or booleans, equality says the same as the order; elsewhere
only values of the same kind can be told apart, and nulls not even that.

* `Kind`, `Value.kind`      the six kinds of values;
* `order_swap`, `equal_comm`   either way round;
* `isSome_order`, `isSome_equal`   the kinds for which the answer is known;
* `test_of_order`           with an order every comparison is read off it;
* `test_mirrored`           the values exchanged;
* `test_coherent`           the laws together.
-/

namespace AccessFilter

/-! ## kinds -/

inductive Kind where
  | null
  | bool
  | number
  | string
  | array
  | object
deriving DecidableEq

/-- Numbers, strings and booleans have an order, other values have none. -/
def Kind.Ordered (k : Kind) : Prop := k = .number ∨ k = .string ∨ k = .bool

namespace Value

def kind : Value → Kind
  | .null => .null
  | .bool _ => .bool
  | .number _ => .number
  | .string _ => .string
  | .array _ => .array
  | .object _ => .object

/-! ## order and equality -/

theorem order_swap (l r : Value) : r.order l = (l.order r).map Ordering.swap := by
  unfold order
  cases l <;> cases r <;> try rfl
  case number.number m n => exact congrArg some (Number.order_swap m n)
  case string.string s t => exact congrArg some Std.OrientedOrd.eq_swap
  case bool.bool b c => exact congrArg some Std.OrientedOrd.eq_swap

theorem equal_comm (l r : Value) : l.equal r = r.equal l := by
  unfold equal
  cases l <;> cases r <;> try rfl
  case number.number m n =>
    show some (m.order n == .eq) = some (n.order m == .eq)
    rw [Number.order_swap m n]
    cases m.order n <;> rfl
  case string.string s t => exact congrArg some BEq.comm
  case bool.bool b c => exact congrArg some BEq.comm
  case array.array as bs => exact congrArg some (same_comm _ _)
  case object.object fs gs => exact congrArg some (same_comm _ _)

theorem isSome_order (l r : Value) :
    (l.order r).isSome = true ↔ l.kind = r.kind ∧ l.kind.Ordered := by
  unfold order Kind.Ordered
  cases l <;> cases r <;> simp [kind]

theorem isSome_equal (l r : Value) :
    (l.equal r).isSome = true ↔ l.kind = r.kind ∧ l.kind ≠ .null := by
  unfold equal
  cases l <;> cases r <;> simp [kind]

theorem equal_self {v : Value} (h : v.kind ≠ .null) : v.equal v = some true := by
  unfold equal
  cases v with
  | null => exact absurd rfl h
  | bool b => exact congrArg some (beq_self_eq_true b)
  | number n =>
    have hswap := Number.order_swap n n
    show some (n.order n == .eq) = some true
    cases horder : n.order n with
    | eq => rfl
    | lt => rw [horder] at hswap; cases hswap
    | gt => rw [horder] at hswap; cases hswap
  | string s => exact congrArg some (beq_self_eq_true s)
  | array items => exact congrArg some (same_refl _)
  | object fields => exact congrArg some (same_refl _)

theorem beq_eq_compare {α : Type} [BEq α] [LawfulBEq α] [Ord α] [Std.LawfulEqOrd α] (a b : α) :
    (a == b) = (compare a b == .eq) := by
  rw [Bool.eq_iff_iff, beq_iff_eq, beq_iff_eq, Std.compare_eq_iff_eq]

/-- Values with an order are equal when neither is before the other. -/
theorem equal_of_order {l r : Value} {o : Ordering} (h : l.order r = some o) :
    l.equal r = some (o == .eq) := by
  cases l <;> cases r <;> try cases h
  case number.number m n => rfl
  case string.string s t => exact congrArg some (beq_eq_compare s t)
  case bool.bool b c => exact congrArg some (beq_eq_compare b c)

end Value

namespace Comparison

/-- Whether a comparison holds of two values that stand in a given order. -/
def accepts : Comparison → Ordering → Bool
  | .eq, o => o == .eq
  | .ne, o => o != .eq
  | .gt, o => o.isGT
  | .ge, o => o.isGE
  | .lt, o => o.isLT
  | .le, o => o.isLE

/-- With an order every comparison is read off it. -/
theorem test_of_order {l r : Value} {o : Ordering} (h : l.order r = some o) (op : Comparison) :
    op.test l r = some (op.accepts o) := by
  unfold test
  cases op with
  | eq => exact Value.equal_of_order h
  | ne =>
    rw [Value.equal_of_order h]
    rfl
  | gt => rw [h]; rfl
  | ge => rw [h]; rfl
  | lt => rw [h]; rfl
  | le => rw [h]; rfl

/-- The comparison that says the same of the values exchanged. -/
def mirrored : Comparison → Comparison
  | .eq => .eq
  | .ne => .ne
  | .gt => .lt
  | .ge => .le
  | .lt => .gt
  | .le => .ge

theorem test_mirrored (op : Comparison) (l r : Value) : op.test l r = op.mirrored.test r l := by
  unfold mirrored test
  cases op with
  | eq => exact Value.equal_comm l r
  | ne => exact congrArg Truth.not (Value.equal_comm l r)
  | gt => rw [l.order_swap r]; rcases l.order r with _ | _ | _ | _ <;> rfl
  | ge => rw [l.order_swap r]; rcases l.order r with _ | _ | _ | _ <;> rfl
  | lt => rw [l.order_swap r]; rcases l.order r with _ | _ | _ | _ <;> rfl
  | le => rw [l.order_swap r]; rcases l.order r with _ | _ | _ | _ <;> rfl

theorem isSome_gt (l r : Value) : (gt.test l r).isSome = (l.order r).isSome := by
  unfold test
  exact Option.isSome_map

/-- **The six comparisons agree.** Exchanging the values turns greater into less and leaves equality as
it is, and a comparison and its opposite are each other's negation. Greater-than is known of two
numbers, two strings or two booleans; then equality is known as well, exactly one of less, equal and
greater is true, and greater-or-equal is what it says. Equality is known of two values of the same
kind that are not null, and true of a value and itself. -/
theorem test_coherent :
    (∀ l r, gt.test l r = lt.test r l ∧ ge.test l r = le.test r l) ∧
    (∀ l r, eq.test l r = eq.test r l ∧ ne.test l r = ne.test r l) ∧
    (∀ l r, ne.test l r = (eq.test l r).not ∧ le.test l r = (gt.test l r).not ∧
      ge.test l r = (lt.test l r).not) ∧
    (∀ l r, (gt.test l r).isSome = true ↔ l.kind = r.kind ∧ l.kind.Ordered) ∧
    (∀ l r, (gt.test l r).isSome = true → (eq.test l r).isSome = true ∧
      [lt, eq, gt].countP (fun op => op.test l r == some true) = 1 ∧
      (ge.test l r = some true ↔ gt.test l r = some true ∨ eq.test l r = some true)) ∧
    (∀ l r, (eq.test l r).isSome = true ↔ l.kind = r.kind ∧ l.kind ≠ .null) ∧
    ∀ v, v.kind ≠ .null → eq.test v v = some true := by
  refine ⟨fun l r => ?_, fun l r => ?_, fun l r => ?_, fun l r => ?_, fun l r known => ?_,
    Value.isSome_equal, fun v hv => Value.equal_self hv⟩
  · exact ⟨test_mirrored .gt l r, test_mirrored .ge l r⟩
  · exact ⟨test_mirrored .eq l r, test_mirrored .ne l r⟩
  · exact ⟨test_complement .eq l r, test_complement .gt l r, test_complement .lt l r⟩
  · rw [isSome_gt, Value.isSome_order]
  · rw [isSome_gt] at known
    obtain ⟨o, horder⟩ := Option.isSome_iff_exists.mp known
    simp only [test_of_order horder]
    refine ⟨rfl, ?_, ?_⟩
    · cases o <;> rfl
    · cases o <;> decide

/-- A large integer and the double it is rounded to: neither is greater, and so they are equal. An
object equals itself and yet is not ordered with itself, whatever it holds. -/
theorem test_coherent_rounded :
    let l : Value := .number (.integer 9007199254740993 (by decide))
    let r : Value := .number (.float ⟨false, 4503599627370496, 1075, by decide, by decide, by decide⟩)
    let fields : Value := .object [("a", .null), ("b", .array [.bool true])]
    (gt.test l r).isSome = true ∧ (eq.test l r).isSome = true ∧
      [lt, eq, gt].countP (fun op => op.test l r == some true) = 1 ∧
      eq.test l r = some true ∧ fields.kind ≠ .null ∧ eq.test fields fields = some true ∧
      gt.test fields fields = none := by
  intro l r fields
  obtain ⟨-, -, -, hgt, hknown, -, hself⟩ := test_coherent
  have known : (gt.test l r).isSome = true := (hgt l r).mpr ⟨rfl, .inl rfl⟩
  obtain ⟨heq, hone, -⟩ := hknown l r known
  exact ⟨known, heq, hone, by decide +kernel, nofun, hself fields nofun, rfl⟩

end Comparison

end AccessFilter
