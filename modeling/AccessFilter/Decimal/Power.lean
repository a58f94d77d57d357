/-!
# Powers of two and of ten

The exponents of doubles go beyond a thousand. A power of numerals like that of two to 1074 is one
that `simp`, `omega` and `decide` try to write out, and give up with a warning. Under a name it stays
as it is; the facts below are those of the library about `Nat.pow`, for the names.

* `twoPow`, `tenPow`   the powers;
* `twoPow_add`, `twoPow_le`, `twoPow_pos`  how the powers of two multiply and grow.
-/

namespace AccessFilter

def twoPow (k : Nat) : Nat := Nat.pow 2 k

def tenPow (k : Nat) : Nat := Nat.pow 10 k

theorem twoPow_zero : twoPow 0 = 1 := rfl

theorem twoPow_pos (k : Nat) : 0 < twoPow k := Nat.pow_pos (by decide)

theorem twoPow_add (a b : Nat) : twoPow (a + b) = twoPow a * twoPow b := Nat.pow_add 2 a b

theorem twoPow_le {a b : Nat} (h : a ≤ b) : twoPow a ≤ twoPow b :=
  Nat.pow_le_pow_right (by decide) h

theorem lt_twoPow_log2 (n : Nat) : n < twoPow (n.log2 + 1) := Nat.lt_log2_self

theorem twoPow_log2_le {n : Nat} (h : n ≠ 0) : twoPow n.log2 ≤ n := Nat.log2_self_le h

theorem log2_lt {n k : Nat} (hn : n ≠ 0) (h : n < twoPow k) : n.log2 < k := (Nat.log2_lt hn).2 h

end AccessFilter
