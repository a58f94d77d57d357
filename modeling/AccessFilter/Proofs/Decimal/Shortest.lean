import AccessFilter.Proofs.Decimal.Nearest
import Mathlib.Algebra.Order.Field.Power
import Mathlib.Data.Rat.Cast.Order
import Mathlib.Tactic.FieldSimp
import Mathlib.Tactic.Positivity

/-!
# The fewest digits round back

On the grid of seventeen digits the step is smaller than the rounding interval of a double, so one
of the two neighbours of the double lies in the interval. Hence some grid has a hit, and what is
found is rounded to the double.

* `Decimal.value`        the value of a decimal, a rational number;
* `Binary64.Covers`      a value that is rounded to the magnitude of a double;
* `covers_onGrid`        what is found on a grid is rounded to the double;
* `exists_onGrid`        something is found on the grid of seventeen digits;
* `covers_shortest`      the decimal with the fewest digits is rounded to the double.
-/

namespace AccessFilter

theorem unitsPerOne_pos : 0 < unitsPerOne := twoPow_pos 1074

theorem unitsPerOne_le : unitsPerOne ≤ tenPow 324 := by decide +kernel

theorem tenPow_pos (k : Nat) : 0 < tenPow k := Nat.pow_pos (by decide)

theorem cast_tenPow (k : Nat) : ((tenPow k : Nat) : ℚ) = 10 ^ k := Nat.cast_pow 10 k

theorem zpow_mul_tenPow {e : Int} {k m : Nat} (h : e + k = m) :
    (10 : ℚ) ^ e * tenPow k = tenPow m := by
  rw [cast_tenPow, cast_tenPow, ← zpow_natCast, ← zpow_natCast, ← zpow_add₀ (by norm_num), h]

def Decimal.value (d : Decimal) : ℚ := d.digits * 10 ^ d.exponent

theorem Decimal.value_normalize (d : Decimal) : d.normalize.value = d.value := by
  have hgo : ∀ fuel (d : Decimal), (normalize.go d fuel).value = d.value := by
    intro fuel
    induction fuel with
    | zero => exact fun d => rfl
    | succ fuel ih =>
      intro d
      rw [normalize.go]
      split
      · next hzero =>
        rw [ih, value, value, zpow_add₀ (by norm_num), zpow_one]
        have hdiv : (d.digits : ℚ) = ((d.digits / 10 : Nat) : ℚ) * 10 := by
          exact_mod_cast (Nat.div_mul_cancel (Nat.dvd_of_mod_eq_zero hzero.1)).symm
        dsimp only
        rw [hdiv]
        ring
      · rfl
  exact hgo _ d

theorem Decimal.powerRatio_pos (g : Int) : 0 < (powerRatio g).2 := by
  rw [powerRatio]
  split
  · exact Nat.one_pos
  · exact Nat.pow_pos (by decide)

theorem Decimal.powerRatio_eq (g : Int) :
    ((powerRatio g).1 : ℚ) / (powerRatio g).2 = 10 ^ g := by
  rw [powerRatio]
  split
  · next hg =>
    obtain ⟨k, rfl⟩ := Int.eq_ofNat_of_zero_le hg
    simp [tenPow]
  · next hg =>
    obtain ⟨k, hk⟩ := Int.eq_ofNat_of_zero_le (show 0 ≤ -g by omega)
    obtain rfl : g = -(k : Int) := by omega
    simp [tenPow]

namespace Binary64

/-! ## the rounding interval -/

/-- Whether a number of quarters of a unit lies in an interval. -/
def Interval.Holds (i : Interval) (v : ℚ) : Prop :=
  if i.closed then i.lower ≤ v ∧ v ≤ i.upper else i.lower < v ∧ v < i.upper

theorem Interval.contains_iff (i : Interval) {num den : Nat} (hden : 0 < den) :
    i.contains num den = true ↔ i.Holds (num / den) := by
  have hpos : (0 : ℚ) < den := by exact_mod_cast hden
  rw [contains, Holds]
  cases i.closed with
  | true =>
    rw [if_pos rfl, if_pos rfl, Bool.and_eq_true, decide_eq_true_eq, decide_eq_true_eq,
      le_div_iff₀ hpos, div_le_iff₀ hpos]
    exact_mod_cast Iff.rfl
  | false =>
    rw [if_neg Bool.false_ne_true, if_neg Bool.false_ne_true, Bool.and_eq_true, decide_eq_true_eq,
      decide_eq_true_eq, lt_div_iff₀ hpos, div_lt_iff₀ hpos]
    exact_mod_cast Iff.rfl

theorem Interval.le_of_holds {i : Interval} {v : ℚ} (h : i.Holds v) : i.lower ≤ v ∧ v ≤ i.upper := by
  rw [Holds] at h
  split at h
  · exact h
  · exact ⟨h.1.le, h.2.le⟩

theorem Interval.holds_of_lt {i : Interval} {v : ℚ} (hlow : i.lower < v) (hhigh : v < i.upper) :
    i.Holds v := by
  rw [Holds]
  split
  · exact ⟨hlow.le, hhigh.le⟩
  · exact ⟨hlow, hhigh⟩

/-- A value that is rounded to the magnitude of a double. -/
def Covers (x : Binary64) (v : ℚ) : Prop := x.interval.Holds (4 * unitsPerOne * v)

/-- **A quotient with such a value is rounded to the double.** -/
theorem ofRatio?_of_covers {x : Binary64} {num den : Nat} (hden : 0 < den)
    (h : x.Covers (num / den)) : ofRatio? x.negative num den = some x := by
  refine ofUnits?_of_around (around_of_contains ((x.interval.contains_iff hden).mpr ?_)) hden
  have hvalue : ((4 * (num * unitsPerOne) : Nat) : ℚ) / den = 4 * unitsPerOne * (num / den) := by
    push_cast
    ring
  rw [hvalue]
  exact h

/-- The ends of the interval lie half a gap away, the lower one a quarter for a power of two. -/
theorem interval_ends (x : Binary64) (hx : x.mantissa ≠ 0) :
    (x.interval.upper : ℚ) = x.interval.middle + 2 * twoPow x.shift ∧
      (x.interval.lower : ℚ) = x.interval.middle -
        (if x.mantissa = twoPow 52 ∧ x.shift ≠ 0 then (twoPow x.shift : ℚ)
          else 2 * twoPow x.shift) := by
  have hle : twoPow x.shift ≤ x.units := Nat.le_mul_of_pos_left _ (Nat.pos_of_ne_zero hx)
  constructor
  · exact_mod_cast rfl
  · rw [interval]
    dsimp only
    split
    · rw [Nat.cast_sub (by omega)]
    · rw [Nat.cast_sub (by omega)]
      push_cast
      rfl

/-- A value that is rounded to a double other than zero is not too small. -/
theorem le_of_covers {x : Binary64} {v : ℚ} (hx : x.mantissa ≠ 0) (h : x.Covers v) :
    1 ≤ 2 * (v * tenPow 324) := by
  have hends := (x.interval_ends hx).2
  have hlow := (Interval.le_of_holds h).1
  have hgap : (1 : ℚ) ≤ twoPow x.shift := by exact_mod_cast twoPow_pos x.shift
  have hmiddle : 4 * (twoPow x.shift : ℚ) ≤ x.interval.middle := by
    exact_mod_cast Nat.mul_le_mul_left 4
      (Nat.le_mul_of_pos_left (twoPow x.shift) (Nat.pos_of_ne_zero hx))
  have htwo : 2 ≤ 4 * unitsPerOne * v := by
    refine le_trans ?_ hlow
    rw [hends]
    split <;> linarith
  have hunits : (0 : ℚ) < unitsPerOne := by exact_mod_cast unitsPerOne_pos
  have hle : (unitsPerOne : ℚ) ≤ tenPow 324 := by exact_mod_cast unitsPerOne_le
  generalize (unitsPerOne : ℚ) = units at *
  generalize (tenPow 324 : ℚ) = ten at *
  have hv : 0 < v := by
    by_contra hneg
    have := mul_nonpos_of_nonneg_of_nonpos (by linarith : 0 ≤ 4 * units) (not_lt.mp hneg)
    linarith
  have hproduct := mul_le_mul_of_nonneg_right hle hv.le
  linarith

/-- A value that is rounded to a double is not too large. -/
theorem covers_le {x : Binary64} {v : ℚ} (h : x.Covers v) : v ≤ tenPow 309 := by
  have hhigh := (Interval.le_of_holds h).2
  have hupper : x.interval.upper ≤ 4 * (unitsPerOne * tenPow 309) := by
    have hmantissa : (x.mantissa + 1) * twoPow x.shift ≤ twoPow 53 * twoPow 2045 :=
      Nat.mul_le_mul x.mantissa_lt (twoPow_le x.shift_le)
    have hrange : twoPow 53 * twoPow 2045 ≤ unitsPerOne * tenPow 309 := by decide +kernel
    have hends : x.interval.upper = 4 * (x.mantissa * twoPow x.shift) + 2 * twoPow x.shift := rfl
    rw [Nat.succ_mul] at hmantissa
    omega
  have hcast : (x.interval.upper : ℚ) ≤ 4 * (unitsPerOne * tenPow 309) := by exact_mod_cast hupper
  have hunits : (0 : ℚ) < unitsPerOne := by exact_mod_cast unitsPerOne_pos
  generalize (unitsPerOne : ℚ) = units at *
  refine le_of_mul_le_mul_left ?_ hunits
  linarith

/-! ## the grids -/

theorem covers_onGrid {x : Binary64} {g : Int} {d : Decimal} (h : x.onGrid? g = some d) :
    x.Covers d.value := by
  have hcovers : ∀ digits : Nat, x.interval.contains
      (digits * (4 * unitsPerOne * (Decimal.powerRatio g).1)) (Decimal.powerRatio g).2 = true →
      x.Covers (Decimal.value ⟨digits, g⟩) := by
    intro digits hcontains
    have hholds := (x.interval.contains_iff (Decimal.powerRatio_pos g)).mp hcontains
    have hvalue : ((digits * (4 * unitsPerOne * (Decimal.powerRatio g).1) : Nat) : ℚ) /
        (Decimal.powerRatio g).2 = 4 * unitsPerOne * Decimal.value ⟨digits, g⟩ := by
      rw [Decimal.value, ← Decimal.powerRatio_eq]
      push_cast
      ring
    rw [Covers, ← hvalue]
    exact hholds
  rw [onGrid?] at h
  dsimp only at h
  split at h
  · next hlow =>
    cases h
    exact hcovers _ (Bool.and_eq_true_iff.mp hlow).1
  split at h
  · next hhigh =>
    cases h
    exact hcovers _ hhigh
  · cases h

/-- When the step of a grid is at most `10^-16` of the number, one of the two neighbours of the
number on the grid lies in the interval: the step is shorter than the interval, and for a power of
two shorter than its upper half. -/
theorem holds_neighbour {x : Binary64} (hx : x.mantissa ≠ 0) {step : ℚ} {d : Nat}
    (hstep : step * 10 ^ 16 ≤ x.interval.middle) (hbelow : d * step ≤ x.interval.middle)
    (habove : x.interval.middle < (d + 1) * step) :
    x.interval.Holds (d * step) ∨ x.interval.Holds ((d + 1) * step) := by
  obtain ⟨hupper, hlower⟩ := x.interval_ends hx
  have hgap : (0 : ℚ) < twoPow x.shift := by exact_mod_cast twoPow_pos _
  have hmiddle : (x.interval.middle : ℚ) = 4 * (x.mantissa * twoPow x.shift) := by
    exact_mod_cast (rfl : x.interval.middle = 4 * (x.mantissa * twoPow x.shift))
  have hnext : ((d : ℚ) + 1) * step = d * step + step := by ring
  by_cases hpower : x.mantissa = twoPow 52 ∧ x.shift ≠ 0
  · rw [if_pos hpower] at hlower
    have hmantissa : (x.mantissa : ℚ) = 4503599627370496 := by
      rw [hpower.1]
      exact_mod_cast (rfl : twoPow 52 = 4503599627370496)
    rw [hmantissa] at hmiddle
    exact .inr (Interval.holds_of_lt (by linarith) (by linarith))
  · rw [if_neg hpower] at hlower
    have hmantissa : (x.mantissa : ℚ) ≤ 9007199254740992 := by
      exact_mod_cast (x.mantissa_lt.le : x.mantissa ≤ 9007199254740992)
    have hproduct := mul_le_mul_of_nonneg_right hmantissa hgap.le
    by_cases hnear : (x.interval.lower : ℚ) < d * step
    · exact .inl (Interval.holds_of_lt hnear (by linarith))
    · exact .inr (Interval.holds_of_lt (by linarith) (by linarith))

/-- **On a grid whose step is at most `10^-16` of the number something is found.** -/
theorem exists_onGrid {x : Binary64} {g : Int} (hx : x.mantissa ≠ 0)
    (hstep : 10 ^ g * 10 ^ 16 * unitsPerOne ≤ (x.units : ℚ)) : ∃ d, x.onGrid? g = some d := by
  have hdown := Decimal.powerRatio_pos g
  have hpower := Decimal.powerRatio_eq g
  rw [onGrid?]
  generalize Decimal.powerRatio g = ratio at hdown hpower ⊢
  obtain ⟨up, down⟩ := ratio
  dsimp only at hdown hpower ⊢
  have hcast : (0 : ℚ) < down := by exact_mod_cast hdown
  generalize hwidth : 4 * unitsPerOne * up = step
  have hratio : (step : ℚ) / down = 4 * unitsPerOne * 10 ^ g := by
    rw [← hpower, ← hwidth]
    push_cast
    ring
  have hpos : 0 < step := by
    have : (0 : ℚ) < step / down := by
      have hunits : (0 : ℚ) < unitsPerOne := by exact_mod_cast unitsPerOne_pos
      rw [hratio]
      exact mul_pos (mul_pos (by norm_num) hunits) (zpow_pos (by norm_num) g)
    exact_mod_cast (div_pos_iff_of_pos_right hcast).mp this
  -- the number of whole steps up to the double, which lies between the two neighbours
  generalize hbelow : x.interval.middle * down / step = d
  have hsides : d * step ≤ x.interval.middle * down ∧
      x.interval.middle * down < (d + 1) * step := by
    have hbounds := (Nat.div_eq_iff hpos).mp hbelow
    rw [Nat.succ_mul]
    omega
  have hneighbour : x.interval.Holds (d * (step / down)) ∨
      x.interval.Holds ((d + 1) * (step / down)) := by
    refine holds_neighbour hx ?_ ?_ ?_
    · rw [hratio, show (x.interval.middle : ℚ) = 4 * x.units by
        exact_mod_cast (rfl : x.interval.middle = 4 * x.units)]
      linarith
    · rw [← mul_div_assoc, div_le_iff₀ hcast]
      exact_mod_cast hsides.1
    · rw [← mul_div_assoc, lt_div_iff₀ hcast]
      exact_mod_cast hsides.2
  have hlow : x.interval.contains (d * step) down = true ↔ x.interval.Holds (d * (step / down)) := by
    rw [x.interval.contains_iff hdown, Nat.cast_mul, mul_div_assoc]
  have hhigh : x.interval.contains ((d + 1) * step) down = true ↔
      x.interval.Holds ((d + 1) * (step / down)) := by
    rw [x.interval.contains_iff hdown, Nat.cast_mul, mul_div_assoc, Nat.cast_succ]
  rw [← hlow, ← hhigh] at hneighbour
  split
  · exact ⟨_, rfl⟩
  · next hnot =>
    split
    · exact ⟨_, rfl⟩
    · next hnothigh =>
      refine absurd ?_ hnot
      rw [Bool.and_eq_true]
      refine ⟨hneighbour.resolve_right hnothigh, ?_⟩
      rw [Bool.eq_false_iff.mpr hnothigh]
      rfl

/-! ## the first digit -/

theorem tenPow_le_of_decimalLength {n : Nat} (hn : n ≠ 0) : tenPow (decimalLength n - 1) ≤ n := by
  rw [decimalLength]
  by_cases hone : (Nat.toDigits 10 n).length - 1 = 0
  · rw [hone]
    exact Nat.one_le_iff_ne_zero.mpr hn
  · have hlen := (Nat.length_toDigits_le_iff (b := 10) (n := n) (by decide)
      (Nat.pos_of_ne_zero hone)).not
    exact Nat.le_of_not_lt (hlen.mp (by omega))

theorem leadingExponent_le {x : Binary64} (hx : x.mantissa ≠ 0) :
    10 ^ x.leadingExponent * (unitsPerOne : ℚ) ≤ x.units := by
  have hunits : 1 ≤ x.units :=
    Nat.mul_pos (Nat.pos_of_ne_zero hx) (twoPow_pos _)
  have hpos : (0 : ℚ) < unitsPerOne := by exact_mod_cast unitsPerOne_pos
  have hwhole : x.units * tenPow 324 / unitsPerOne ≠ 0 := by
    refine Nat.ne_of_gt (Nat.div_pos ?_ unitsPerOne_pos)
    exact Nat.le_trans unitsPerOne_le (Nat.le_mul_of_pos_left _ hunits)
  have hlen : 0 < decimalLength (x.units * tenPow 324 / unitsPerOne) := Nat.length_toDigits_pos
  have hten := tenPow_le_of_decimalLength hwhole
  have hnat : tenPow (decimalLength (x.units * tenPow 324 / unitsPerOne) - 1) * unitsPerOne
      ≤ x.units * tenPow 324 :=
    Nat.le_trans (Nat.mul_le_mul_right _ hten) (Nat.div_mul_le_self _ _)
  have hcast : (10 : ℚ) ^ x.leadingExponent * tenPow 324
      = tenPow (decimalLength (x.units * tenPow 324 / unitsPerOne) - 1) := by
    rw [leadingExponent]
    generalize decimalLength (x.units * tenPow 324 / unitsPerOne) = length at hlen ⊢
    exact zpow_mul_tenPow (by omega)
  have hten324 : (0 : ℚ) < tenPow 324 := by exact_mod_cast tenPow_pos 324
  refine le_of_mul_le_mul_right ?_ hten324
  calc (10 : ℚ) ^ x.leadingExponent * unitsPerOne * tenPow 324
      = 10 ^ x.leadingExponent * tenPow 324 * unitsPerOne := by ring
    _ ≤ x.units * tenPow 324 := by
      rw [hcast]
      exact_mod_cast hnat

/-! ## the shortest decimal -/

theorem covers_zero {x : Binary64} (hx : x.mantissa = 0) : x.Covers 0 := by
  have hlower : x.interval.lower = 0 := by
    show 4 * x.units - _ = 0
    rw [units, hx, Nat.zero_mul]
    exact Nat.zero_sub _
  have hclosed : x.interval.closed = true := by
    show decide (x.mantissa % 2 = 0) = true
    rw [hx]
    rfl
  rw [Covers, mul_zero, Interval.Holds, if_pos hclosed, hlower]
  exact ⟨le_of_eq Nat.cast_zero, Nat.cast_nonneg _⟩

/-- **The decimal with the fewest digits is rounded to the double.** -/
theorem covers_shortest (x : Binary64) : x.Covers x.shortest.value := by
  rw [shortest]
  split
  · next hx =>
    rw [show Decimal.value ⟨0, 0⟩ = 0 by rw [Decimal.value]; norm_num]
    exact covers_zero hx
  · next hx =>
    -- the finest grid that is tried has a hit
    have hfound : ∃ d, x.onGrid? (x.leadingExponent - (16 : Nat)) = some d := by
      refine exists_onGrid hx ?_
      have hexponent : (10 : ℚ) ^ (x.leadingExponent - (16 : Nat)) * 10 ^ 16
          = 10 ^ x.leadingExponent := by
        rw [← zpow_natCast, ← zpow_add₀ (by norm_num)]
        norm_num
      rw [hexponent]
      exact leadingExponent_le hx
    dsimp only
    split
    · next d hd =>
      obtain ⟨n, -, hn⟩ := List.exists_of_findSome?_eq_some hd
      rw [Decimal.value_normalize]
      exact covers_onGrid hn
    · next hnone =>
      obtain ⟨d, hd⟩ := hfound
      have := List.findSome?_eq_none_iff.mp hnone 16 (List.mem_range.mpr (by decide))
      rw [hd] at this
      cases this

end Binary64

end AccessFilter
