import AccessFilter.Proofs.Decimal.Rounding
import AccessFilter.Proofs.Decimal.Shortest
import AccessFilter.Value.Number
import Mathlib.Order.Compare

/-!
# The order of numbers

Two integers compare exactly, in whichever range they share; with a double on either side both compare
as doubles, and then integers that lie close together may count as equal. The two ways agree so far
that a number which is less than another is at most as large as a double. Hence less-than is
transitive, however integers and doubles are mixed.

* `roundedUnits_mono`     the conversion of integers to doubles keeps the order;
* `Number.order_cases`    integers compare exactly, and all else as doubles;
* `scaled_le_of_lt`, `lt_of_scaled_lt`   what less-than has to do with the values as doubles;
* `order_lt_trans`        less-than is transitive;
* `order_consistent`      the laws of the order.
-/

namespace AccessFilter

/-! ## integers as doubles -/

theorem roundedUnits_of_nonneg {i : Int} (h : 0 ≤ i) :
    roundedUnits i = ((significant53 i.natAbs * unitsPerOne : Nat) : Int) := by
  unfold roundedUnits
  rcases Int.lt_or_eq_of_le h with hpos | rfl
  · rw [Int.sign_eq_one_of_pos hpos, Int.one_mul]
  · rw [Int.natAbs_zero, significant53_of_lt 0 (twoPow_pos 53), Nat.zero_mul]
    rfl

theorem roundedUnits_of_neg {i : Int} (h : i < 0) :
    roundedUnits i = -((significant53 i.natAbs * unitsPerOne : Nat) : Int) := by
  unfold roundedUnits
  rw [Int.sign_eq_neg_one_of_neg h, Int.neg_mul, Int.one_mul]

/-- The conversion of integers to doubles keeps the order. -/
theorem roundedUnits_mono {i j : Int} (h : i ≤ j) : roundedUnits i ≤ roundedUnits j := by
  have magnitude : ∀ {m n : Nat}, m ≤ n →
      significant53 m * unitsPerOne ≤ significant53 n * unitsPerOne := fun hmn =>
    Nat.mul_le_mul_right _ (significant53_mono hmn)
  by_cases hi : 0 ≤ i
  · have hm := magnitude (show i.natAbs ≤ j.natAbs by omega)
    rw [roundedUnits_of_nonneg hi, roundedUnits_of_nonneg (Int.le_trans hi h)]
    omega
  by_cases hj : 0 ≤ j
  · rw [roundedUnits_of_neg (by omega), roundedUnits_of_nonneg hj]
    omega
  · have hm := magnitude (show j.natAbs ≤ i.natAbs by omega)
    rw [roundedUnits_of_neg (by omega), roundedUnits_of_neg (by omega)]
    omega

theorem compare_map {α β : Type} [LinearOrder α] [LinearOrder β] {f : α → β} (h : StrictMono f)
    (a b : α) : compare (f a) (f b) = compare a b := by
  rw [← cmp_eq_compare, ← cmp_eq_compare, h.cmp_map_eq]

namespace Number

/-! ## exact and as doubles -/

/-- Whether the integers are in the signed range, in the unsigned one or in one each, they compare
exactly. -/
theorem order_integer (i j : Int) (hi : IntegerRange i) (hj : IntegerRange j) :
    (integer i hi).order (integer j hj) = compare i j := by
  have natural : 0 ≤ i → 0 ≤ j → compare i.toNat j.toNat = compare i j := by
    intro hi0 hj0
    obtain ⟨m, rfl⟩ := Int.eq_ofNat_of_zero_le hi0
    obtain ⟨n, rfl⟩ := Int.eq_ofNat_of_zero_le hj0
    exact (compare_map Int.natCast_strictMono m n).symm
  unfold order signed? unsigned?
  dsimp only
  by_cases hi63 : i < 9223372036854775808
  · rw [if_pos hi63]
    by_cases hj63 : j < 9223372036854775808
    · rw [if_pos hj63]
    · rw [if_neg hj63, if_pos (show 0 ≤ j by omega)]
      by_cases hi0 : 0 ≤ i
      · rw [if_pos hi0]
        exact natural hi0 (by omega)
      · rw [if_neg hi0]
        exact (Int.compare_eq_lt.mpr (by omega)).symm
  · rw [if_neg hi63, if_pos (show 0 ≤ i by omega)]
    by_cases hj0 : 0 ≤ j
    · rw [if_pos hj0]
      exact natural (by omega) hj0
    · rw [if_neg hj0, if_pos (show j < 9223372036854775808 by omega)]
      exact (Int.compare_eq_gt.mpr (by omega)).symm

theorem order_float_left (x : Binary64) (b : Number) :
    (float x).order b = compare x.scaled b.scaled := by
  unfold order
  cases b.signed? <;> cases b.unsigned? <;> rfl

theorem order_float_right (a : Number) (y : Binary64) :
    a.order (float y) = compare a.scaled y.scaled := by
  unfold order
  cases a.signed? <;> cases a.unsigned? <;> rfl

theorem order_swap (a b : Number) : b.order a = (a.order b).swap := by
  cases a with
  | float x => rw [order_float_left, order_float_right, Int.compare_swap]
  | integer i hi =>
    cases b with
    | float y => rw [order_float_left, order_float_right, Int.compare_swap]
    | integer j hj => rw [order_integer, order_integer, Int.compare_swap]

/-- There are two ways to compare: integers exactly, and all else as doubles. -/
theorem order_cases (a b : Number) :
    (∃ i j hi hj, a = integer i hi ∧ b = integer j hj ∧ a.order b = compare i j) ∨
      a.order b = compare a.scaled b.scaled := by
  cases a with
  | float x => exact .inr (order_float_left x b)
  | integer i hi =>
    cases b with
    | float y => exact .inr (order_float_right _ y)
    | integer j hj => exact .inl ⟨i, j, hi, hj, rfl, rfl, order_integer i j hi hj⟩

/-! ## less-than -/

/-- A number that is less than another is no larger as a double. -/
theorem scaled_le_of_lt {a b : Number} (h : a.order b = .lt) : a.scaled ≤ b.scaled := by
  rcases order_cases a b with ⟨i, j, hi, hj, rfl, rfl, heq⟩ | heq
  · rw [heq, Int.compare_eq_lt] at h
    exact roundedUnits_mono (Int.le_of_lt h)
  · rw [heq, Int.compare_eq_lt] at h
    exact Int.le_of_lt h

/-- A number that is smaller as a double is less than the other, also where integers compare exactly. -/
theorem lt_of_scaled_lt {a b : Number} (h : a.scaled < b.scaled) : a.order b = .lt := by
  rcases order_cases a b with ⟨i, j, hi, hj, rfl, rfl, heq⟩ | heq
  · rw [heq, Int.compare_eq_lt]
    apply Int.lt_of_not_ge
    intro hle
    have hmono : roundedUnits j ≤ roundedUnits i := roundedUnits_mono hle
    exact Int.not_le.mpr h hmono
  · rw [heq, Int.compare_eq_lt]
    exact h

/-- Only integers can be told apart that are the same double. -/
theorem integers_of_lt {a b : Number} (h : a.order b = .lt) (same : a.scaled = b.scaled) :
    ∃ i j hi hj, a = integer i hi ∧ b = integer j hj ∧ i < j := by
  rcases order_cases a b with ⟨i, j, hi, hj, ha, hb, heq⟩ | heq
  · rw [heq, Int.compare_eq_lt] at h
    exact ⟨i, j, hi, hj, ha, hb, h⟩
  · rw [heq, Int.compare_eq_lt] at h
    exact absurd same (Int.ne_of_lt h)

theorem order_lt_trans {a b c : Number} (hab : a.order b = .lt) (hbc : b.order c = .lt) :
    a.order c = .lt := by
  rcases Int.lt_or_eq_of_le (scaled_le_of_lt hab) with hlt | hsame
  · exact lt_of_scaled_lt (Int.lt_of_lt_of_le hlt (scaled_le_of_lt hbc))
  rcases Int.lt_or_eq_of_le (scaled_le_of_lt hbc) with hlt | hsame'
  · exact lt_of_scaled_lt (hsame ▸ hlt)
  -- the three are the same double, so they are integers and were compared exactly
  obtain ⟨i, j, hi, hj, rfl, rfl, hij⟩ := integers_of_lt hab hsame
  obtain ⟨j', k, _, hk, hj', rfl, hjk⟩ := integers_of_lt hbc hsame'
  cases hj'
  rw [order_integer]
  exact Int.compare_eq_lt.mpr (Int.lt_trans hij hjk)

/-! ## values -/

/-- The value as a double, a rational number. -/
def doubleValue (a : Number) : ℚ := a.scaled / unitsPerOne

theorem cast_twoPow (k : Nat) : ((twoPow k : Nat) : ℚ) = 2 ^ k := Nat.cast_pow 2 k

/-- The value of a double is exact: the mantissa times a power of two, with its sign. -/
theorem doubleValue_float (x : Binary64) :
    (float x).doubleValue
      = (if x.negative then -1 else 1) * (x.mantissa * 2 ^ x.shift / 2 ^ 1074) := by
  show ((x.scaled : Int) : ℚ) / (twoPow 1074 : Nat) = _
  have hunits : (x.units : ℚ) = x.mantissa * 2 ^ x.shift := by
    rw [Binary64.units, Nat.cast_mul, cast_twoPow]
  rw [cast_twoPow, ← hunits]
  unfold Binary64.scaled
  cases x.negative with
  | false =>
    rw [if_neg Bool.false_ne_true, if_neg Bool.false_ne_true, one_mul, Int.cast_natCast]
  | true => rw [if_pos rfl, if_pos rfl, Int.cast_neg, Int.cast_natCast, neg_one_mul, neg_div]

theorem compare_doubleValue (a b : Number) :
    compare a.doubleValue b.doubleValue = compare a.scaled b.scaled := by
  have hpos : (0 : ℚ) < unitsPerOne := by exact_mod_cast unitsPerOne_pos
  have hmono : StrictMono fun z : Int => (z : ℚ) / unitsPerOne := by
    intro y z hyz
    exact div_lt_div_of_pos_right (by exact_mod_cast hyz) hpos
  exact compare_map hmono a.scaled b.scaled

theorem doubleValue_mono {i j : Int} {hi : IntegerRange i} {hj : IntegerRange j} (h : i ≤ j) :
    (integer i hi).doubleValue ≤ (integer j hj).doubleValue := by
  have hpos : (0 : ℚ) < unitsPerOne := by exact_mod_cast unitsPerOne_pos
  have hle : ((roundedUnits i : Int) : ℚ) ≤ (roundedUnits j : Int) := by
    exact_mod_cast roundedUnits_mono h
  exact div_le_div_of_nonneg_right hle hpos.le

/-- **Numbers are ordered consistently.** Swapping two numbers swaps the answer, so exactly one of
less, equal and greater holds. Integers compare by their exact values and doubles by theirs, the two
zeros being equal. An integer and a double compare as doubles, and the conversion keeps the order of
integers. Less-than is transitive over every mix of them. -/
theorem order_consistent :
    (∀ a b : Number, b.order a = (a.order b).swap) ∧
    (∀ a b : Number, a.order b = .lt ∧ b.order a = .gt ∨ a.order b = .eq ∧ b.order a = .eq ∨
      a.order b = .gt ∧ b.order a = .lt) ∧
    (∀ i j hi hj, (integer i hi).order (integer j hj) = compare i j) ∧
    (∀ x y, (float x).order (float y) = compare (float x).doubleValue (float y).doubleValue) ∧
    (∀ x, (float x).doubleValue
      = (if x.negative then -1 else 1) * (x.mantissa * 2 ^ x.shift / 2 ^ 1074)) ∧
    (float (.zero true)).order (float (.zero false)) = .eq ∧
    (∀ i hi x, (integer i hi).order (float x)
      = compare (integer i hi).doubleValue (float x).doubleValue) ∧
    (∀ i j hi hj, i ≤ j → (integer i hi).doubleValue ≤ (integer j hj).doubleValue) ∧
    ∀ a b c : Number, a.order b = .lt → b.order c = .lt → a.order c = .lt := by
  refine ⟨order_swap, fun a b => ?_, order_integer, fun x y => ?_, doubleValue_float, ?_,
    fun i hi x => ?_, fun _ _ _ _ => doubleValue_mono, fun _ _ _ => order_lt_trans⟩
  · rw [order_swap a b]
    cases a.order b <;> decide
  · rw [order_float_left, compare_doubleValue]
    rfl
  · rw [order_float_left]
    show compare (Binary64.zero true).scaled (Binary64.zero false).scaled = .eq
    rw [Binary64.scaled_zero, Binary64.scaled_zero]
    rfl
  · rw [order_float_right, compare_doubleValue]
    rfl

/-- Around `2^53`, where doubles are two apart: an integer, the double above it and the next integer
but one. The first integer equals the double below it, and is less than the third by exact values. -/
theorem order_consistent_odd :
    let a := integer 9007199254740993 (by decide)
    let below := float ⟨false, 4503599627370496, 1075, by decide, by decide, by decide⟩
    let b := float ⟨false, 4503599627370497, 1075, by decide, by decide, by decide⟩
    let c := integer 9007199254740995 (by decide)
    below.order a = .eq ∧ a.order b = .lt ∧ b.order c = .lt ∧ a.order c = .lt ∧
      a.doubleValue ≤ c.doubleValue := by
  intro a below b c
  have hab : a.order b = .lt := by decide +kernel
  have hbc : b.order c = .lt := by decide +kernel
  obtain ⟨-, -, -, -, -, -, -, hmono, htrans⟩ := order_consistent
  exact ⟨by decide +kernel, hab, hbc, htrans a b c hab hbc, hmono _ _ _ _ (by decide)⟩

end Number

end AccessFilter
