import AccessFilter.Decimal.Power

/-!
# Finite binary64 numbers as exact integers

A finite double is a whole number of *units* of `2^-1074`: its mantissa shifted left by `shift`.
Everything here is exact arithmetic on natural numbers.

* `Binary64`           sign, mantissa and shift in the one canonical form;
* `Binary64.scaled`    the value in units, an integer; two numbers compare as their `scaled` do;
* `roundHalfEven`      the nearest integer of a quotient, a half going to the even neighbour;
* `significant53`      a natural number rounded to 53 significant bits;
* `Binary64.ofRatio?`  the double nearest to a quotient, `none` when it is out of range.
-/

namespace AccessFilter

/-- A finite double: `mantissa · 2^shift` units of `2^-1074`, with a sign. -/
structure Binary64 where
  negative : Bool
  mantissa : Nat
  shift : Nat
  mantissa_lt : mantissa < twoPow 53
  normal : shift = 0 ∨ twoPow 52 ≤ mantissa
  shift_le : shift ≤ 2045
deriving DecidableEq

/-- How many units make one. -/
def unitsPerOne : Nat := twoPow 1074

namespace Binary64

/-- The magnitude, in units. -/
def units (x : Binary64) : Nat := x.mantissa * twoPow x.shift

/-- The value, in units. -/
def scaled (x : Binary64) : Int := if x.negative then -(x.units : Int) else (x.units : Int)

def zero (negative : Bool) : Binary64 :=
  ⟨negative, 0, 0, by decide, .inl rfl, by decide⟩

theorem scaled_zero (negative : Bool) : (zero negative).scaled = 0 := by
  cases negative <;> simp [scaled, units, zero]

def negate (x : Binary64) : Binary64 := { x with negative := !x.negative }

end Binary64

/-! ## rounding -/

/-- The integer nearest to `num / den`; a half goes to the even neighbour. -/
def roundHalfEven (num den : Nat) : Nat :=
  let q := num / den
  let r := num % den
  if 2 * r < den then q
  else if den < 2 * r then q + 1
  else if q % 2 = 0 then q else q + 1

theorem div_le_roundHalfEven (num den : Nat) : num / den ≤ roundHalfEven num den := by
  unfold roundHalfEven
  dsimp only
  split
  · exact Nat.le_refl _
  split
  · exact Nat.le_succ _
  split
  · exact Nat.le_refl _
  · exact Nat.le_succ _

theorem roundHalfEven_le (num den : Nat) : roundHalfEven num den ≤ num / den + 1 := by
  unfold roundHalfEven
  dsimp only
  split
  · exact Nat.le_succ _
  split
  · exact Nat.le_refl _
  split
  · exact Nat.le_succ _
  · exact Nat.le_refl _

theorem roundHalfEven_one (n : Nat) : roundHalfEven n 1 = n := by
  simp [roundHalfEven, Nat.mod_one]

/-- How many low bits of a number of this size do not fit into 53. -/
def excessBits (n : Nat) : Nat := n.log2 + 1 - 53

theorem lt_of_excessBits (n : Nat) : n < twoPow (excessBits n + 53) := by
  refine Nat.lt_of_lt_of_le (lt_twoPow_log2 n) (twoPow_le ?_)
  unfold excessBits
  omega

theorem le_of_excessBits (n : Nat) (h : excessBits n ≠ 0) : twoPow (excessBits n + 52) ≤ n := by
  have hlog : n.log2 ≠ 0 := by
    intro h0
    simp [excessBits, h0] at h
  have hn : n ≠ 0 := by
    intro h0
    rw [h0] at hlog
    exact hlog (by decide)
  have he : excessBits n + 52 = n.log2 := by
    unfold excessBits at h ⊢
    omega
  rw [he]
  exact twoPow_log2_le hn

/-- A natural number rounded to 53 significant bits. -/
def significant53 (n : Nat) : Nat :=
  roundHalfEven n (twoPow (excessBits n)) * twoPow (excessBits n)

theorem significant53_of_lt (n : Nat) (h : n < twoPow 53) : significant53 n = n := by
  have he : excessBits n = 0 := by
    by_cases hn : n = 0
    · rw [hn]; decide
    · have := log2_lt hn h
      unfold excessBits
      omega
  simp [significant53, he, twoPow_zero, roundHalfEven_one]

namespace Binary64

/-- The rounded mantissa of `num / den` units on the grid of its size. -/
def roundedMantissa (num den : Nat) : Nat :=
  roundHalfEven num (den * twoPow (excessBits (num / den)))

theorem roundedMantissa_le (num den : Nat) : roundedMantissa num den ≤ twoPow 53 := by
  have hlt := lt_of_excessBits (num / den)
  have hq : num / (den * twoPow (excessBits (num / den))) < twoPow 53 := by
    rw [← Nat.div_div_eq_div_mul, Nat.div_lt_iff_lt_mul (twoPow_pos _), ← twoPow_add,
      Nat.add_comm 53]
    exact hlt
  exact Nat.le_trans (roundHalfEven_le _ _) hq

theorem le_roundedMantissa (num den : Nat) (h : excessBits (num / den) ≠ 0) :
    twoPow 52 ≤ roundedMantissa num den := by
  refine Nat.le_trans ?_ (div_le_roundHalfEven _ _)
  rw [← Nat.div_div_eq_div_mul, Nat.le_div_iff_mul_le (twoPow_pos _), ← twoPow_add,
    Nat.add_comm 52]
  exact le_of_excessBits _ h

/-- The double with this mantissa and shift; a mantissa that rounded up to `2^53` moves to the
next shift. `none` beyond the largest finite double. -/
def ofMantissa? (negative : Bool) (m s : Nat) (hm : m ≤ twoPow 53) (hn : s = 0 ∨ twoPow 52 ≤ m) :
    Option Binary64 :=
  if h : m = twoPow 53 then
    if hs : s + 1 ≤ 2045 then
      some ⟨negative, twoPow 52, s + 1, by decide, .inr (Nat.le_refl _), hs⟩
    else none
  else
    if hs : s ≤ 2045 then
      some ⟨negative, m, s, Nat.lt_of_le_of_ne hm h, hn, hs⟩
    else none

/-- The double nearest to `num / den` units, a half going to the even mantissa. -/
def ofUnits? (negative : Bool) (num den : Nat) : Option Binary64 :=
  ofMantissa? negative (roundedMantissa num den) (excessBits (num / den))
    (roundedMantissa_le num den)
    (if h : excessBits (num / den) = 0 then .inl h else .inr (le_roundedMantissa num den h))

/-- The double nearest to `num / den`, a half going to the even mantissa. -/
def ofRatio? (negative : Bool) (num den : Nat) : Option Binary64 :=
  ofUnits? negative (num * unitsPerOne) den

end Binary64

end AccessFilter
