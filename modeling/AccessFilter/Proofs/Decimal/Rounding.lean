import AccessFilter.Decimal.Binary64

/-!
# Rounding to 53 bits keeps the order

A number is rounded on the grid of its size. On one grid nearest integers keep the order. Of two
grids the finer one ends where the coarser one starts, at a power of two.

* `roundHalfEven_mono`   nearest integers of quotients with one denominator;
* `excessBits_mono`      a larger number has no finer grid;
* `significant53_le`, `le_significant53`   the two ends of a grid;
* `significant53_mono`   rounding keeps the order.
-/

namespace AccessFilter

theorem roundHalfEven_mono {m n : Nat} (den : Nat) (h : m ≤ n) :
    roundHalfEven m den ≤ roundHalfEven n den := by
  by_cases hq : m / den = n / den
  · have hm := Nat.div_add_mod m den
    have hn := Nat.div_add_mod n den
    have hrest : m % den ≤ n % den := by
      rw [hq] at hm
      omega
    -- both round the same quotient, and what makes the smaller rest go up makes the larger one
    unfold roundHalfEven
    dsimp only
    rw [hq]
    grind
  · have hle : m / den ≤ n / den := Nat.div_le_div_right h
    calc roundHalfEven m den ≤ m / den + 1 := roundHalfEven_le m den
      _ ≤ n / den := by omega
      _ ≤ roundHalfEven n den := div_le_roundHalfEven n den

theorem excessBits_mono {m n : Nat} (h : m ≤ n) : excessBits m ≤ excessBits n := by
  apply Nat.le_of_not_lt
  intro hlt
  have hlow : twoPow (excessBits m + 52) ≤ m := le_of_excessBits m (by omega)
  have hhigh : n < twoPow (excessBits n + 53) := lt_of_excessBits n
  have hgrid : twoPow (excessBits n + 53) ≤ twoPow (excessBits m + 52) := twoPow_le (by omega)
  omega

/-! ## the ends of a grid -/

theorem significant53_eq (n : Nat) :
    significant53 n = Binary64.roundedMantissa n 1 * twoPow (excessBits n) := by
  unfold significant53 Binary64.roundedMantissa
  rw [Nat.div_one, Nat.one_mul]

theorem significant53_le (n : Nat) : significant53 n ≤ twoPow (excessBits n + 53) := by
  rw [significant53_eq, Nat.add_comm, twoPow_add]
  exact Nat.mul_le_mul_right _ (Binary64.roundedMantissa_le n 1)

theorem le_significant53 (n : Nat) (h : excessBits n ≠ 0) :
    twoPow (excessBits n + 52) ≤ significant53 n := by
  rw [significant53_eq, Nat.add_comm, twoPow_add]
  apply Nat.mul_le_mul_right
  apply Binary64.le_roundedMantissa
  rwa [Nat.div_one]

/-- **Rounding to 53 significant bits keeps the order.** -/
theorem significant53_mono {m n : Nat} (h : m ≤ n) : significant53 m ≤ significant53 n := by
  by_cases he : excessBits m = excessBits n
  · unfold significant53
    rw [he]
    exact Nat.mul_le_mul_right _ (roundHalfEven_mono _ h)
  · have hlt : excessBits m < excessBits n := Nat.lt_of_le_of_ne (excessBits_mono h) he
    calc significant53 m ≤ twoPow (excessBits m + 53) := significant53_le m
      _ ≤ twoPow (excessBits n + 52) := twoPow_le (by omega)
      _ ≤ significant53 n := le_significant53 n (by omega)

end AccessFilter
