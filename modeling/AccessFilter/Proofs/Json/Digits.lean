import AccessFilter.Json.Number
import AccessFilter.Proofs.Decimal.Written

/-!
# Decimal digits

* `digitsValue_toDigits`    the digits of a number have its value;
* `digitsValue_append`, `digitsValue_cons`   digits behind others;
* `digitsValue_lt`, `le_digitsValue`   a number lies between the powers of ten that its digits count;
* `spanDigits_digits`       digits before something else.
-/

namespace AccessFilter.Json

theorem digitsValue_eq (ds : List Char) : digitsValue ds = Nat.ofDigitChars 10 ds 0 :=
  Nat.ofDigitChars_eq_foldl.symm

theorem digitsValue_toDigits (n : Nat) : digitsValue (Nat.toDigits 10 n) = n := by
  rw [digitsValue_eq, Nat.ofDigitChars_ten_toDigits]

theorem digitsValue_append (ds es : List Char) :
    digitsValue (ds ++ es) = tenPow es.length * digitsValue ds + digitsValue es := by
  rw [digitsValue_eq, Nat.ofDigitChars_append, Nat.ofDigitChars_eq_ofDigitChars_zero,
    ← digitsValue_eq, ← digitsValue_eq]
  rfl

theorem digitsValue_cons (d : Char) (ds : List Char) :
    digitsValue (d :: ds) = tenPow ds.length * digitValue d + digitsValue ds := by
  have hone : digitsValue [d] = digitValue d := by
    show 10 * 0 + digitValue d = _
    omega
  rw [← List.singleton_append, digitsValue_append, hone]

theorem digitsValue_zeros (n : Nat) : digitsValue (Decimal.zeros n) = 0 := by
  rw [digitsValue_eq, Decimal.zeros, Nat.ofDigitChars_replicate_zero, Nat.mul_zero]

theorem digitValue_le {d : Char} (h : d.isDigit = true) : digitValue d ≤ 9 := by
  have hbounds := toNat_of_isDigit h
  show d.toNat - 48 ≤ 9
  omega

theorem one_le_digitValue {d : Char} (h : d.isDigit = true) (hd : d ≠ '0') :
    1 ≤ digitValue d := by
  have hbounds := toNat_of_isDigit h
  have hne : d.toNat ≠ 48 := fun e => hd (Char.toNat_inj.mp e)
  show 1 ≤ d.toNat - 48
  omega

theorem digitsValue_lt {ds : List Char} (h : ∀ d ∈ ds, d.isDigit = true) :
    digitsValue ds < tenPow ds.length := by
  induction ds with
  | nil => exact Nat.one_pos
  | cons d ds ih =>
    obtain ⟨hd, hds⟩ := List.forall_mem_cons.mp h
    have hfirst := Nat.mul_le_mul_left (tenPow ds.length) (digitValue_le hd)
    have hten : tenPow (d :: ds).length = tenPow ds.length * 10 := Nat.pow_succ 10 ds.length
    rw [digitsValue_cons, hten]
    have := ih hds
    omega

theorem le_digitsValue {d : Char} {ds : List Char} (h : d.isDigit = true) (hd : d ≠ '0') :
    tenPow ds.length ≤ digitsValue (d :: ds) := by
  have hfirst := Nat.mul_le_mul_left (tenPow ds.length) (one_le_digitValue h hd)
  rw [digitsValue_cons]
  omega

theorem digitsValue_dropWhile (ds : List Char) :
    digitsValue (ds.dropWhile (· = '0')) = digitsValue ds := by
  induction ds with
  | nil => rfl
  | cons d ds ih =>
    rw [List.dropWhile_cons]
    split
    · next hd =>
      obtain rfl : d = '0' := of_decide_eq_true hd
      have hzero : digitValue '0' = 0 := rfl
      rw [ih, digitsValue_cons, hzero]
      omega
    · rfl

theorem spanDigits_digits {ds rest : List Char} (hds : ∀ d ∈ ds, d.isDigit = true)
    (hrest : ∀ c ∈ rest.head?, c.isDigit = false) : spanDigits (ds ++ rest) = (ds, rest) := by
  rw [spanDigits, List.takeWhile_append_of_pos hds, List.dropWhile_append_of_pos hds]
  cases rest with
  | nil => rw [List.takeWhile_nil, List.append_nil, List.dropWhile_nil]
  | cons c rest =>
    have hc : c.isDigit = false := hrest c rfl
    rw [List.takeWhile_cons_of_neg (by rw [hc]; exact Bool.false_ne_true),
      List.dropWhile_cons_of_neg (by rw [hc]; exact Bool.false_ne_true), List.append_nil]

end AccessFilter.Json
