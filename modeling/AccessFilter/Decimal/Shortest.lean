import AccessFilter.Decimal.Binary64

/-!
# The fewest decimal digits that read back

`Binary64.shortest` gives the decimal `digits · 10^exponent` with the fewest digits among those
that round to the number; of several with equally many digits the nearest, a tie going to the even
last digit. All comparisons are exact.

* `Decimal`            a decimal number: digits without trailing zeros, and a power of ten;
* `Binary64.interval`  the reals that round to a number, in quarters of a unit;
* `DecimalStyle`       what the written forms differ in;
* `Binary64.text`      the written form.
-/

namespace AccessFilter

/-- The number of decimal digits; zero has one. -/
def decimalLength (n : Nat) : Nat := (Nat.toDigits 10 n).length

/-- A decimal number `digits · 10^exponent`. -/
structure Decimal where
  digits : Nat
  exponent : Int
deriving DecidableEq

namespace Decimal

/-- Numerator and denominator over `unit` of `10^g`. -/
def powerRatio (g : Int) : Nat × Nat :=
  if 0 ≤ g then (tenPow g.toNat, 1) else (1, tenPow (-g).toNat)

/-- The same decimal without trailing zeros in its digits. -/
def normalize (d : Decimal) : Decimal := go d (decimalLength d.digits)
where
  go (d : Decimal) : Nat → Decimal
    | 0 => d
    | fuel + 1 =>
      if d.digits % 10 = 0 ∧ d.digits ≠ 0 then go ⟨d.digits / 10, d.exponent + 1⟩ fuel else d

end Decimal

namespace Binary64

/-- The reals that round to a number, in quarters of a unit: the lower end, the number itself, the
upper end, and whether the ends belong to it. The gap below a power of two is half the gap above. -/
structure Interval where
  lower : Nat
  middle : Nat
  upper : Nat
  closed : Bool

def interval (x : Binary64) : Interval :=
  let gap := twoPow x.shift
  let below := if x.mantissa = twoPow 52 ∧ x.shift ≠ 0 then gap else 2 * gap
  ⟨4 * x.units - below, 4 * x.units, 4 * x.units + 2 * gap, x.mantissa % 2 = 0⟩

/-- Whether `num / den` quarters of a unit lie in the interval. -/
def Interval.contains (i : Interval) (num den : Nat) : Bool :=
  if i.closed then i.lower * den ≤ num && num ≤ i.upper * den
  else i.lower * den < num && num < i.upper * den

/-- The exponent of the first decimal digit of a positive number. -/
def leadingExponent (x : Binary64) : Int :=
  (decimalLength (x.units * tenPow 324 / unitsPerOne) : Int) - 325

/-- The decimal of the grid `10^g` that rounds to `x` and is nearest to it, if one does. Only the
two neighbours of `x` on the grid can. -/
def onGrid? (x : Binary64) (g : Int) : Option Decimal :=
  let i := x.interval
  let (up, down) := Decimal.powerRatio g
  -- `d` on the grid is `d * step / down` quarters of a unit
  let step := 4 * unitsPerOne * up
  let d := i.middle * down / step
  let low := i.contains (d * step) down
  let high := i.contains ((d + 1) * step) down
  let toLow := i.middle * down - d * step
  let toHigh := (d + 1) * step - i.middle * down
  if low && (!high || toLow < toHigh || (toLow = toHigh && d % 2 = 0)) then some ⟨d, g⟩
  else if high then some ⟨d + 1, g⟩
  else none

/-- The decimal with the fewest digits that rounds to the magnitude of `x`. -/
def shortest (x : Binary64) : Decimal :=
  if x.mantissa = 0 then ⟨0, 0⟩
  else
    let e := x.leadingExponent
    match (List.range 17).findSome? fun (n : Nat) => x.onGrid? (e - n) with
    | some d => d.normalize
    | none => ⟨0, 0⟩

end Binary64

/-! ## the written form -/

/-- What goes between the digits and a positive exponent; the rest of the written form is common:
positional with a fraction while the first digit counts from `10^-5` to `10^15`. -/
structure DecimalStyle where
  exponentMark : String

namespace Decimal

def zeros (n : Nat) : List Char := List.replicate n '0'

/-- The written form of a positive decimal or zero. -/
def chars (style : DecimalStyle) (d : Decimal) : List Char :=
  let ds := Nat.toDigits 10 d.digits
  let n := ds.length
  -- the exponent of the first digit
  let e : Int := d.exponent + (n : Int) - 1
  if -5 ≤ e ∧ e ≤ 15 then
    if 0 ≤ d.exponent then ds ++ zeros d.exponent.toNat ++ ['.', '0']
    else if 0 ≤ e then ds.take (e.toNat + 1) ++ '.' :: ds.drop (e.toNat + 1)
    else '0' :: '.' :: zeros ((-e).toNat - 1) ++ ds
  else
    let mantissa := match ds with
      | [] => []
      | [c] => [c]
      | c :: rest => c :: '.' :: rest
    mantissa ++
      (if 0 ≤ e then style.exponentMark.toList ++ Nat.toDigits 10 e.toNat
       else 'e' :: '-' :: Nat.toDigits 10 (-e).toNat)

end Decimal

def Binary64.chars (style : DecimalStyle) (x : Binary64) : List Char :=
  let magnitude := x.shortest.chars style
  if x.negative then '-' :: magnitude else magnitude

end AccessFilter
