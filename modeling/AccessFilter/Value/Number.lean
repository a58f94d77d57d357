import AccessFilter.Decimal.Binary64

/-!
# Numbers: exact integers and finite doubles

* `Number`        an integer from `-2^63` to `2^64 - 1`, or a finite double; `1` and `1.0` differ;
* `Number.signed?`, `unsigned?`   the two ranges of integers, which overlap;
* `Number.order`  integers compare in a range that both are in; as soon as a double is involved both
                  sides compare as doubles, an integer being rounded to 53 significant bits;
* `Number.same`   equal kind and equal value, `-0.0` and `0.0` being equal.
-/

namespace AccessFilter

/-- The integers a number can hold exactly. -/
def IntegerRange (i : Int) : Prop := -9223372036854775808 ≤ i ∧ i < 18446744073709551616

instance (i : Int) : Decidable (IntegerRange i) := inferInstanceAs (Decidable (_ ∧ _))

inductive Number where
  | integer (value : Int) (inRange : IntegerRange value)
  | float (value : Binary64)
deriving DecidableEq

/-- An integer rounded to the nearest double, in units of `2^-1074`. -/
def roundedUnits (i : Int) : Int :=
  i.sign * ((significant53 i.natAbs * unitsPerOne : Nat) : Int)

namespace Number

/-- The integer as a number, if it is in range. -/
def ofInt? (i : Int) : Option Number :=
  if h : IntegerRange i then some (.integer i h) else none

/-- The value as a double, in units. -/
def scaled : Number → Int
  | .integer i _ => roundedUnits i
  | .float x => x.scaled

/-- The integer, if 64 bits hold it with a sign. -/
def signed? : Number → Option Int
  | .integer i _ => if i < 9223372036854775808 then some i else none
  | .float _ => none

/-- The integer, if 64 bits hold it without a sign. -/
def unsigned? : Number → Option Nat
  | .integer i _ => if 0 ≤ i then some i.toNat else none
  | .float _ => none

/-- The order of two integers in a range they share, and otherwise of the two values as doubles. -/
def order (a b : Number) : Ordering :=
  match a.signed?, b.signed?, a.unsigned?, b.unsigned? with
  | some i, some j, _, _ => compare i j
  | _, _, some i, some j => compare i j
  -- of two integers that share no range one is beyond the signed ones and the other is negative
  | _, some _, some _, _ => .gt
  | some _, _, _, some _ => .lt
  | _, _, _, _ => compare a.scaled b.scaled

/-- The same number written in the same kind. -/
def same : Number → Number → Bool
  | .integer i _, .integer j _ => i == j
  | .float x, .float y => x.scaled == y.scaled
  | _, _ => false

end Number

end AccessFilter
