import AccessFilter.Decimal.Shortest
import Mathlib.Tactic.Ring
import Mathlib.Tactic.Linarith

/-!
# The nearest double

A quotient that lies in the rounding interval of a double is rounded to it. The interval below a
power of two is half as wide, and there the quotient is rounded on the finer grid of the smaller
numbers, where it goes up to the power.

* `roundHalfEven_eq`        the integer that is nearest to a quotient;
* `excessBits_eq`           how many bits of a number do not fit;
* `Binary64.Around`         what lies in the rounding interval of a double;
* `ofUnits?_of_around`      a quotient in the interval of a double is rounded to it.
-/

namespace AccessFilter

/-- The integer that is nearest to a quotient; of two that are equally near, the even one. -/
theorem roundHalfEven_eq {num den m : Nat} (hlow : 2 * (m * den) ≤ 2 * num + den)
    (hhigh : 2 * num ≤ 2 * (m * den) + den)
    (hodd : m % 2 = 1 → 2 * (m * den) < 2 * num + den ∧ 2 * num < 2 * (m * den) + den)
    (hden : 0 < den) : roundHalfEven num den = m := by
  have hdivmod := Nat.div_add_mod num den
  have hmod := Nat.mod_lt num hden
  have hmul : den * (num / den) = (num / den) * den := Nat.mul_comm _ _
  -- the quotient rounded down is `m` or the integer before it
  have hq : num / den = m ∨ num / den + 1 = m := by
    have hle : num / den ≤ m := by
      refine Nat.lt_succ_iff.mp ((Nat.div_lt_iff_lt_mul hden).mpr ?_)
      rw [Nat.succ_mul]
      omega
    have hge : m ≤ num / den + 1 := by
      by_contra hlt
      have hstep : (num / den + 2) * den ≤ m * den := Nat.mul_le_mul_right den (by omega)
      rw [Nat.add_mul] at hstep
      omega
    omega
  rw [roundHalfEven]
  rcases hq with hq | hq
  · rw [hq] at hdivmod hmul ⊢
    split
    · rfl
    split
    · omega
    split
    · rfl
    · next hm => exact absurd (hodd (by omega)).2 (by omega)
  · have hm : m * den = (num / den) * den + den := by rw [← hq, Nat.succ_mul]
    split
    · omega
    split
    · exact hq
    split
    · exact absurd (hodd (by omega)).1 (by omega)
    · exact hq

theorem excessBits_of_lt {n : Nat} (h : n < twoPow 53) : excessBits n = 0 := by
  by_cases hn : n = 0
  · rw [hn]
    decide
  · have hlog := log2_lt hn h
    unfold excessBits
    omega

theorem excessBits_eq {n s : Nat} (hlow : twoPow (52 + s) ≤ n) (hhigh : n < twoPow (53 + s)) :
    excessBits n = s := by
  have hn : n ≠ 0 := Nat.ne_of_gt (Nat.lt_of_lt_of_le (twoPow_pos _) hlow)
  have hlog : n.log2 = 52 + s := (Nat.log2_eq_iff hn).mpr
    ⟨hlow, by rw [show 52 + s + 1 = 53 + s by omega]; exact hhigh⟩
  unfold excessBits
  omega

theorem twoPow_succ (k : Nat) : twoPow (k + 1) = 2 * twoPow k := by
  rw [twoPow_add, Nat.mul_comm]
  rfl

namespace Binary64

/-! ## assembling a double -/

theorem ofMantissa?_self (x : Binary64) {m s : Nat} (hm : m ≤ twoPow 53)
    (hn : s = 0 ∨ twoPow 52 ≤ m) (hmantissa : m = x.mantissa) (hshift : s = x.shift) :
    ofMantissa? x.negative m s hm hn = some x := by
  subst hmantissa hshift
  rw [ofMantissa?, dif_neg (Nat.ne_of_lt x.mantissa_lt), dif_pos x.shift_le]

theorem ofMantissa?_carry (x : Binary64) {m s : Nat} (hm : m ≤ twoPow 53)
    (hn : s = 0 ∨ twoPow 52 ≤ m) (hmantissa : m = twoPow 53) (hshift : s + 1 = x.shift)
    (hx : x.mantissa = twoPow 52) : ofMantissa? x.negative m s hm hn = some x := by
  obtain ⟨negative, mantissa, shift, hlt, hnormal, hle⟩ := x
  subst hmantissa hshift hx
  rw [ofMantissa?, dif_pos rfl, dif_pos hle]

/-! ## quotients in the interval -/

/-- What it means that `num / den` units lie in the interval of a double: at most half a gap away
from it, and less for an odd mantissa; a quarter of a gap below a power of two. -/
structure Around (x : Binary64) (num den : Nat) : Prop where
  low : 2 * (x.mantissa * (den * twoPow x.shift)) ≤ 2 * num + den * twoPow x.shift
  high : 2 * num ≤ 2 * (x.mantissa * (den * twoPow x.shift)) + den * twoPow x.shift
  odd : x.mantissa % 2 = 1 →
    2 * (x.mantissa * (den * twoPow x.shift)) < 2 * num + den * twoPow x.shift ∧
      2 * num < 2 * (x.mantissa * (den * twoPow x.shift)) + den * twoPow x.shift
  power : x.mantissa = twoPow 52 → x.shift ≠ 0 →
    4 * (x.mantissa * (den * twoPow x.shift)) ≤ 4 * num + den * twoPow x.shift

theorem around_of_contains {x : Binary64} {num den : Nat}
    (h : x.interval.contains (4 * num) den = true) : x.Around num den := by
  rw [Interval.contains, interval] at h
  dsimp only at h
  have hunits : 4 * x.units * den = 4 * (x.mantissa * (den * twoPow x.shift)) := by
    rw [units]
    ring
  have hgap : 2 * twoPow x.shift * den = 2 * (den * twoPow x.shift) := by ring
  have hquarter : twoPow x.shift * den = den * twoPow x.shift := Nat.mul_comm _ _
  rw [Nat.sub_mul, Nat.add_mul, hunits, hgap] at h
  by_cases hpower : x.mantissa = twoPow 52 ∧ x.shift ≠ 0
  · rw [if_pos hpower, hquarter, hpower.1] at h
    rw [if_pos (by decide : decide (twoPow 52 % 2 = 0) = true), Bool.and_eq_true,
      decide_eq_true_eq, decide_eq_true_eq] at h
    refine ⟨?_, ?_, ?_, fun _ _ => ?_⟩
    all_goals rw [hpower.1]
    · omega
    · omega
    · exact fun hodd => absurd hodd (by decide)
    · omega
  · rw [if_neg hpower, hgap] at h
    have hnot : x.mantissa = twoPow 52 → x.shift ≠ 0 → False := fun hm hs => hpower ⟨hm, hs⟩
    by_cases heven : x.mantissa % 2 = 0
    · rw [if_pos (decide_eq_true heven), Bool.and_eq_true, decide_eq_true_eq,
        decide_eq_true_eq] at h
      exact ⟨by omega, by omega, fun hodd => by omega, fun hm hs => (hnot hm hs).elim⟩
    · rw [if_neg (by rw [decide_eq_false heven]; exact Bool.false_ne_true), Bool.and_eq_true,
        decide_eq_true_eq, decide_eq_true_eq] at h
      exact ⟨by omega, by omega, fun _ => by omega, fun hm hs => (hnot hm hs).elim⟩

theorem twoPow_mul (k s den : Nat) : twoPow (k + s) * den = twoPow k * (den * twoPow s) := by
  rw [twoPow_add]
  ring

variable {x : Binary64} {num den : Nat}

/-- A quotient in the interval has no more bits than the double. -/
theorem Around.quotient_lt (h : x.Around num den) (hden : 0 < den) :
    num / den < twoPow (53 + x.shift) := by
  have hmul : (x.mantissa + 1) * (den * twoPow x.shift) ≤ twoPow 53 * (den * twoPow x.shift) :=
    Nat.mul_le_mul_right _ x.mantissa_lt
  have hgap : 0 < den * twoPow x.shift := Nat.mul_pos hden (twoPow_pos _)
  have hhigh := h.high
  rw [Nat.succ_mul] at hmul
  rw [Nat.div_lt_iff_lt_mul hden, twoPow_mul]
  omega

/-- On the grid of the double its mantissa is the nearest integer. -/
theorem ofUnits?_of_excessBits (h : x.Around num den) (hden : 0 < den)
    (hexcess : excessBits (num / den) = x.shift) : ofUnits? x.negative num den = some x := by
  have hmantissa : roundedMantissa num den = x.mantissa := by
    rw [roundedMantissa, hexcess]
    exact roundHalfEven_eq h.low h.high h.odd (Nat.mul_pos hden (twoPow_pos _))
  exact ofMantissa?_self x _ _ hmantissa hexcess

/-- Below a power of two the grid is twice as fine, and the quotient is rounded up to the power. -/
theorem ofUnits?_of_below (h : x.Around num den) (hden : 0 < den) (hshift : x.shift ≠ 0)
    (hbelow : num < twoPow 52 * (den * twoPow x.shift)) :
    ofUnits? x.negative num den = some x := by
  have hpower : x.mantissa = twoPow 52 := by
    refine Nat.le_antisymm (Nat.le_of_not_lt fun hlt => ?_) (x.normal.resolve_left hshift)
    have hmul : (twoPow 52 + 1) * (den * twoPow x.shift) ≤ x.mantissa * (den * twoPow x.shift) :=
      Nat.mul_le_mul_right _ hlt
    have hlow := h.low
    rw [Nat.succ_mul] at hmul
    omega
  obtain ⟨s, hs⟩ := Nat.exists_eq_succ_of_ne_zero hshift
  have hhalf : den * twoPow x.shift = 2 * (den * twoPow s) := by
    rw [hs, twoPow_succ]
    ring
  have hquarter := h.power hpower hshift
  rw [hpower, hhalf, Nat.mul_left_comm (twoPow 52) 2] at hquarter
  rw [hhalf, Nat.mul_left_comm (twoPow 52) 2] at hbelow
  have hfine : twoPow 53 * (den * twoPow s) = 2 * (twoPow 52 * (den * twoPow s)) := by
    rw [twoPow_succ]
    ring
  have hone : den * twoPow s ≤ twoPow 52 * (den * twoPow s) :=
    Nat.le_mul_of_pos_left _ (twoPow_pos 52)
  have hexcess : excessBits (num / den) = s := by
    refine excessBits_eq ?_ ?_
    · rw [Nat.le_div_iff_mul_le hden, twoPow_mul]
      omega
    · rw [Nat.div_lt_iff_lt_mul hden, twoPow_mul, hfine]
      exact hbelow
  have hmantissa : roundedMantissa num den = twoPow 53 := by
    rw [roundedMantissa, hexcess]
    refine roundHalfEven_eq ?_ ?_ (fun hodd => absurd hodd (by decide))
      (Nat.mul_pos hden (twoPow_pos s))
    · rw [hfine]
      omega
    · rw [hfine]
      omega
  exact ofMantissa?_carry x _ _ hmantissa (by rw [hexcess, hs]) hpower

/-- **A quotient in the interval of a double is rounded to it.** -/
theorem ofUnits?_of_around (h : x.Around num den) (hden : 0 < den) :
    ofUnits? x.negative num den = some x := by
  have htop := h.quotient_lt hden
  by_cases hshift : x.shift = 0
  · refine ofUnits?_of_excessBits h hden ?_
    rw [hshift] at htop ⊢
    exact excessBits_of_lt htop
  -- below the power of two that the mantissa starts at, one bit less is in excess
  by_cases hbottom : twoPow (52 + x.shift) ≤ num / den
  · exact ofUnits?_of_excessBits h hden (excessBits_eq hbottom htop)
  · refine ofUnits?_of_below h hden hshift ?_
    rw [Nat.not_le, Nat.div_lt_iff_lt_mul hden, twoPow_mul] at hbottom
    exact hbottom

end Binary64

end AccessFilter
