import AccessFilter.Proofs.Decimal.Shortest
import AccessFilter.Proofs.Json.Digits
import AccessFilter.Proofs.Yaml.Numeral
import AccessFilter.Yaml.Scalar.Meaning

/-!
# Written doubles are read back

A written double has digits with a point among them, or an exponent behind them, or both. Whatever
its form, its digits times its power of ten are the value of the shortest decimal, and the double
nearest to that is the double that was written.

* `nearest?_of_covers`      digits whose value is rounded to a double are read as the double;
* `exists_nearest`          a written decimal has digits and an exponent with its value;
* `double?_chars`           what is written for a double is read as the double.
-/

namespace AccessFilter.Yaml

open Json

/-! ## the nearest double -/

theorem tenPow_lt_zpow {k : Nat} {e : Int} (h : k < e) : (tenPow k : ℚ) < 10 ^ e := by
  rw [cast_tenPow, ← zpow_natCast]
  exact zpow_lt_zpow_right₀ (by norm_num) h

theorem zpow_mul_tenPow_le {k : Nat} {e : Int} (h : e + k ≤ -1) : (10 : ℚ) ^ e * tenPow k ≤ 1 / 10 := by
  rw [cast_tenPow, ← zpow_natCast, ← zpow_add₀ (by norm_num)]
  calc (10 : ℚ) ^ (e + k) ≤ 10 ^ (-1 : Int) := zpow_le_zpow_right₀ (by norm_num) h
    _ = 1 / 10 := by norm_num

theorem zero_of_mantissa {x : Binary64} (h : x.mantissa = 0) : Binary64.zero x.negative = x := by
  obtain ⟨negative, mantissa, shift, hlt, hnormal, hle⟩ := x
  obtain rfl : mantissa = 0 := h
  obtain rfl : shift = 0 := hnormal.resolve_right (by decide)
  rfl

/-- A value far below the smallest double is rounded to zero only. -/
theorem zero_of_covers {x : Binary64} {v : ℚ} (h : x.Covers v) (hv : v * tenPow 324 ≤ 1 / 10) :
    Binary64.zero x.negative = x := by
  refine zero_of_mantissa ?_
  by_contra hx
  have := Binary64.le_of_covers hx h
  linarith

theorem value_lt {ds : List Char} (hds : ∀ d ∈ ds, d.isDigit = true) (e : Int) :
    (digitsValue ds : ℚ) * 10 ^ e < 10 ^ (ds.length + e) := by
  have hlt : (digitsValue ds : ℚ) < tenPow ds.length := by exact_mod_cast digitsValue_lt hds
  rw [zpow_add₀ (by norm_num), zpow_natCast, ← cast_tenPow]
  exact mul_lt_mul_of_pos_right hlt (zpow_pos (by norm_num) e)

theorem le_value {d : Char} {ds : List Char} (h : d.isDigit = true) (hd : d ≠ '0') (e : Int) :
    (10 : ℚ) ^ (ds.length + e) ≤ digitsValue (d :: ds) * 10 ^ e := by
  have hle : (tenPow ds.length : ℚ) ≤ digitsValue (d :: ds) := by exact_mod_cast le_digitsValue h hd
  rw [zpow_add₀ (by norm_num), zpow_natCast, ← cast_tenPow]
  exact mul_le_mul_of_nonneg_right hle (zpow_pos (by norm_num) e).le

/-- **Digits whose value is rounded to a double are read as the double.** -/
theorem nearest?_of_covers {x : Binary64} {ds : List Char} {e : Int}
    (hds : ∀ d ∈ ds, d.isDigit = true) (h : x.Covers (digitsValue ds * 10 ^ e)) :
    nearest? x.negative ds e = some x := by
  rw [← digitsValue_dropWhile] at h
  have hdigits : ∀ d ∈ ds.dropWhile (· = '0'), d.isDigit = true := fun d hd =>
    hds d ((List.dropWhile_sublist _).mem hd)
  have hhead := List.head?_dropWhile_not (· = '0') ds
  rw [nearest?]
  generalize ds.dropWhile (· = '0') = es at h hdigits hhead ⊢
  dsimp only
  split
  · next hsmall =>
    -- no digits, or a value below the smallest double
    refine congrArg some (zero_of_covers h ?_)
    rcases hsmall with hempty | hsmall
    · rw [List.isEmpty_iff.mp hempty, show digitsValue [] = 0 from rfl]
      norm_num
    · have hlt := mul_le_mul_of_nonneg_right (value_lt hdigits e).le
        (by exact_mod_cast (tenPow_pos 324).le : (0 : ℚ) ≤ tenPow 324)
      exact hlt.trans (zpow_mul_tenPow_le (by omega))
  split
  · next hsome hlarge =>
    -- above the largest double nothing is rounded to one
    cases es with
    | nil => exact absurd (.inl rfl) hsome
    | cons d es =>
      have hd : d ≠ '0' := by
        simpa using hhead
      have hlow : (10 : ℚ) ^ (es.length + e) ≤ digitsValue (d :: es) * 10 ^ e :=
        le_value (hdigits d List.mem_cons_self) hd e
      have hhigh := Binary64.covers_le h
      have hten : (tenPow 309 : ℚ) < 10 ^ ((es.length : Int) + e) :=
        tenPow_lt_zpow (by rw [List.length_cons] at hlarge; omega)
      exact absurd (hten.trans_le (hlow.trans hhigh)) (lt_irrefl _)
  · split
    · next he =>
      refine Binary64.ofRatio?_of_covers Nat.one_pos ?_
      obtain ⟨k, rfl⟩ := Int.eq_ofNat_of_zero_le he
      rw [Nat.cast_mul, Int.toNat_natCast, cast_tenPow, Nat.cast_one, div_one, ← zpow_natCast]
      exact h
    · next he =>
      refine Binary64.ofRatio?_of_covers (tenPow_pos _) ?_
      obtain ⟨k, hk⟩ := Int.eq_ofNat_of_zero_le (show 0 ≤ -e by omega)
      obtain rfl : e = -(k : Int) := by omega
      rw [neg_neg, Int.toNat_natCast, cast_tenPow, ← zpow_natCast, div_eq_mul_inv, ← zpow_neg]
      exact h

/-! ## written digits -/

theorem digitIn?_digit {c : Char} (h : c.isDigit = true) :
    digitIn? 10 c = some (Json.digitValue c) := by
  have hle := digitValue_le h
  rw [digitIn?, h, Bool.true_and, if_pos]
  · rfl
  · exact decide_eq_true (Nat.lt_succ_of_le hle)

theorem digitIn?_eq_none {c : Char} (h : c.isDigit = false) : digitIn? 10 c = none := by
  rw [digitIn?, h]
  rfl

theorem digitsIn?_digits {ds : List Char} (hne : ds ≠ []) (hds : ∀ d ∈ ds, d.isDigit = true) :
    digitsIn? 10 ds = some (digitsValue ds) := by
  have hfold : ∀ (es : List Char) (n : Nat), (∀ d ∈ es, d.isDigit = true) →
      es.foldlM (fun n d => (digitIn? 10 d).map (10 * n + ·)) n
        = some (es.foldl (fun n c => 10 * n + Json.digitValue c) n) := by
    intro es
    induction es with
    | nil => exact fun n _ => rfl
    | cons d es ih =>
      intro n h
      obtain ⟨hd, hes⟩ := List.forall_mem_cons.mp h
      rw [List.foldlM_cons, digitIn?_digit hd]
      exact ih _ hes
  cases ds with
  | nil => exact absurd rfl hne
  | cons d ds => exact hfold (d :: ds) 0 hds

theorem digitsIn?_eq_none {ds : List Char} {c : Char} (hc : c ∈ ds) (h : c.isDigit = false) :
    digitsIn? 10 ds = none := by
  have hfold : ∀ (es : List Char) (n : Nat), c ∈ es →
      es.foldlM (fun n d => (digitIn? 10 d).map (10 * n + ·)) n = none := by
    intro es
    induction es with
    | nil => exact fun n hc => absurd hc List.not_mem_nil
    | cons d es ih =>
      intro n hc
      rw [List.foldlM_cons]
      rcases List.mem_cons.mp hc with rfl | hc
      · rw [digitIn?_eq_none h]
        rfl
      · cases digitIn? 10 d with
        | none => rfl
        | some k => exact ih _ hc
  cases ds with
  | nil => exact absurd hc List.not_mem_nil
  | cons d ds => exact hfold (d :: ds) 0 hc

theorem ne_sign_of_digit {d : Char} (h : d.isDigit = true) : d ≠ '-' ∧ d ≠ '+' := by
  constructor
  all_goals
    rintro rfl
    cases h

theorem exponent?_written (e : Int) : exponent? (writtenExponent e) = some e := by
  have hread : ∀ n : Nat, digitsIn? 10 (Nat.toDigits 10 n) = some n := fun n => by
    rw [digitsIn?_digits Nat.toDigits_ne_nil fun d hd => isDigit_of_mem_toDigits hd,
      digitsValue_toDigits]
  rw [writtenExponent]
  split
  · next he =>
    obtain ⟨n, rfl⟩ := Int.eq_ofNat_of_zero_le he
    show exponent? ('e' :: Nat.toDigits 10 n) = some (n : Int)
    have hn := hread n
    obtain ⟨d, ds, hds⟩ := List.exists_cons_of_ne_nil (Nat.toDigits_ne_nil (n := n) (b := 10))
    obtain ⟨hminus, hplus⟩ := ne_sign_of_digit (d := d)
      (isDigit_of_mem_toDigits (n := n) (hds ▸ List.mem_cons_self))
    rw [hds] at hn ⊢
    rw [exponent?, if_pos (.inl rfl)]
    · rw [hn]
      rfl
    · exact fun _ heq => hminus (List.cons.inj heq).1
    · exact fun _ heq => hplus (List.cons.inj heq).1
  · next he =>
    obtain ⟨n, hn⟩ := Int.eq_ofNat_of_zero_le (show 0 ≤ -e by omega)
    obtain rfl : e = -(n : Int) := by omega
    rw [exponent?, if_pos (.inl rfl), neg_neg, Int.toNat_natCast, hread]
    rfl

theorem head?_writtenExponent (e : Int) : (writtenExponent e).head? = some 'e' := by
  rw [writtenExponent]
  split <;> rfl

/-! ## written doubles -/

section
variable {whole fraction tail : List Char} {e : Int}

/-- Digits with a point among them, and an exponent or none. -/
theorem doubleMagnitude?_point (negative : Bool) (hwhole : ∀ d ∈ whole, d.isDigit = true)
    (hne : whole ≠ []) (hfraction : ∀ d ∈ fraction, d.isDigit = true)
    (htail : ∀ c ∈ tail.head?, c.isDigit = false) (he : exponent? tail = some e) :
    doubleMagnitude? negative (whole ++ '.' :: (fraction ++ tail))
      = nearest? negative (whole ++ fraction) (e - fraction.length) := by
  have hpoint : ∀ c ∈ ('.' :: (fraction ++ tail)).head?, c.isDigit = false := by
    rintro _ ⟨⟩
    rfl
  have hempty := List.isEmpty_eq_false_iff.mpr hne
  simp only [doubleMagnitude?, spanDigits_digits hwhole hpoint, spanDigits_digits hfraction htail,
    he, hempty, Bool.false_and, Bool.false_eq_true, if_false]
  rfl

theorem doubleMagnitude?_positional (negative : Bool) (hwhole : ∀ d ∈ whole, d.isDigit = true)
    (hne : whole ≠ []) (hfraction : ∀ d ∈ fraction, d.isDigit = true) :
    doubleMagnitude? negative (whole ++ '.' :: fraction)
      = nearest? negative (whole ++ fraction) (-fraction.length) := by
  have htail : ∀ c ∈ ([] : List Char).head?, c.isDigit = false := fun c hc => by cases hc
  have hread := doubleMagnitude?_point negative hwhole hne hfraction htail rfl
  rw [List.append_nil, zero_sub] at hread
  exact hread

theorem doubleMagnitude?_whole (negative : Bool) (hwhole : ∀ d ∈ whole, d.isDigit = true)
    (hne : whole ≠ []) (htail : tail.head? = some 'e') (he : exponent? tail = some e) :
    doubleMagnitude? negative (whole ++ tail) = nearest? negative whole e := by
  obtain ⟨rest, rfl⟩ := List.head?_eq_some_iff.mp htail
  have hmark : ∀ c ∈ ('e' :: rest).head?, c.isDigit = false := by
    rintro _ ⟨⟩
    rfl
  have hempty := List.isEmpty_eq_false_iff.mpr hne
  simp only [doubleMagnitude?, spanDigits_digits hwhole hmark, hempty, Bool.false_and,
    Bool.false_eq_true, if_false]
  show (exponent? ('e' :: rest)).bind (fun e => nearest? negative (whole ++ []) (e - 0)) = _
  rw [he, Option.bind_some, List.append_nil, sub_zero]

end

/-! ### the forms of a decimal -/

theorem isDigit_zeros (k : Nat) : ∀ c ∈ Decimal.zeros k, c.isDigit = true := fun c hc => by
  rw [List.eq_of_mem_replicate hc]
  rfl

section
variable {ds : List Char} (hds : ∀ d ∈ ds, d.isDigit = true)
include hds

/-- A whole number ends with a zero behind the point. -/
theorem doubleMagnitude?_zeros (negative : Bool) (hne : ds ≠ []) (k : Nat) :
    doubleMagnitude? negative (ds ++ Decimal.zeros k ++ ['.', '0'])
      = nearest? negative (ds ++ Decimal.zeros k ++ ['0']) (-1) := by
  have hwhole : ∀ c ∈ ds ++ Decimal.zeros k, c.isDigit = true :=
    List.forall_mem_append.mpr ⟨hds, isDigit_zeros k⟩
  have hzero : ∀ c ∈ ['0'], c.isDigit = true := isDigit_zeros 1
  exact doubleMagnitude?_positional negative hwhole (by simp [hne]) hzero

theorem doubleMagnitude?_among (negative : Bool) {k : Nat} (hk : k < ds.length) :
    doubleMagnitude? negative (ds.take (k + 1) ++ '.' :: ds.drop (k + 1))
      = nearest? negative ds (k + 1 - ds.length) := by
  have hne : ds.take (k + 1) ≠ [] := by
    rw [← List.length_pos_iff, List.length_take]
    omega
  have hdrop : ∀ c ∈ ds.drop (k + 1), c.isDigit = true := fun c hc => hds c (List.mem_of_mem_drop hc)
  have hread := doubleMagnitude?_positional negative (fun c hc => hds c (List.mem_of_mem_take hc)) hne
    hdrop
  have hcount : -((ds.length - (k + 1) : Nat) : Int) = k + 1 - ds.length := by omega
  rw [List.take_append_drop, List.length_drop, hcount] at hread
  exact hread

theorem doubleMagnitude?_behind (negative : Bool) (k : Nat) :
    doubleMagnitude? negative ('0' :: '.' :: Decimal.zeros k ++ ds)
      = nearest? negative ('0' :: (Decimal.zeros k ++ ds)) (-(k + ds.length)) := by
  have hzero : ∀ c ∈ ['0'], c.isDigit = true := isDigit_zeros 1
  have hread := doubleMagnitude?_positional negative hzero (List.cons_ne_nil _ _)
    (List.forall_mem_append.mpr ⟨isDigit_zeros k, hds⟩)
  rw [List.length_append, Decimal.zeros, List.length_replicate, Nat.cast_add] at hread
  exact hread

end

theorem value_zeros (ds : List Char) (k : Nat) :
    (digitsValue (ds ++ Decimal.zeros k ++ ['0']) : ℚ) * 10 ^ (-1 : Int)
      = digitsValue ds * 10 ^ k := by
  have hlength : (Decimal.zeros k).length = k := List.length_replicate
  have hzero : digitsValue ['0'] = 0 := rfl
  have hten : tenPow ['0'].length = 10 := rfl
  rw [digitsValue_append, digitsValue_append, digitsValue_zeros, hlength, hzero, hten]
  push_cast
  rw [cast_tenPow, zpow_neg_one]
  ring

theorem digitsValue_behind (ds : List Char) (k : Nat) :
    digitsValue ('0' :: (Decimal.zeros k ++ ds)) = digitsValue ds := by
  have hzero : Json.digitValue '0' = 0 := rfl
  rw [digitsValue_cons, digitsValue_append, digitsValue_zeros, hzero]
  omega

/-- **What is written for a decimal has digits and an exponent with its value.** -/
theorem exists_nearest (negative : Bool) (d : Decimal) :
    ∃ ds e, (∀ c ∈ ds, Char.isDigit c = true) ∧ (digitsValue ds : ℚ) * 10 ^ e = d.value ∧
      doubleMagnitude? negative (d.chars style) = nearest? negative ds e := by
  have hds : ∀ c ∈ Nat.toDigits 10 d.digits, c.isDigit = true :=
    fun c hc => isDigit_of_mem_toDigits hc
  have hvalue := digitsValue_toDigits d.digits
  have hne : Nat.toDigits 10 d.digits ≠ [] := Nat.toDigits_ne_nil
  rw [Decimal.chars, Decimal.value]
  generalize Nat.toDigits 10 d.digits = ds at hds hvalue hne ⊢
  have hlen : 0 < ds.length := List.length_pos_of_ne_nil hne
  rw [← hvalue]
  dsimp only
  split
  · -- positional: the point stands behind the digits, among them or before them
    split
    · next hexponent =>
      obtain ⟨k, hk⟩ := Int.eq_ofNat_of_zero_le hexponent
      rw [hk, Int.toNat_natCast]
      refine ⟨_, _, ?_, ?_, doubleMagnitude?_zeros hds negative hne k⟩
      · exact List.forall_mem_append.mpr
          ⟨List.forall_mem_append.mpr ⟨hds, isDigit_zeros k⟩, isDigit_zeros 1⟩
      · rw [value_zeros, zpow_natCast]
    split
    · next hfirst =>
      obtain ⟨k, hk⟩ := Int.eq_ofNat_of_zero_le hfirst
      have hexponent : d.exponent = k + 1 - ds.length := by omega
      rw [hk, Int.toNat_natCast, hexponent]
      exact ⟨ds, _, hds, rfl, doubleMagnitude?_among hds negative (by omega)⟩
    · next hfirst =>
      obtain ⟨k, hk⟩ : ∃ k : Nat, -(d.exponent + ds.length - 1) = k + 1 :=
        ⟨(-(d.exponent + ds.length)).toNat, by omega⟩
      have hexponent : d.exponent = -(k + ds.length) := by omega
      have hzeros : (-(d.exponent + ds.length - 1)).toNat - 1 = k := by omega
      rw [hzeros, hexponent]
      refine ⟨_, _, ?_, ?_, doubleMagnitude?_behind hds negative k⟩
      · exact List.forall_mem_cons.mpr ⟨rfl, List.forall_mem_append.mpr ⟨isDigit_zeros k, hds⟩⟩
      · rw [digitsValue_behind]
  · -- with an exponent: a single digit has no point behind it
    refine ⟨ds, d.exponent, hds, rfl, ?_⟩
    have hmark : ∀ e, ∀ c ∈ (writtenExponent e).head?, c.isDigit = false := fun e c hc => by
      rw [head?_writtenExponent] at hc
      cases hc
      rfl
    cases ds with
    | nil => exact absurd rfl hne
    | cons c rest =>
      obtain ⟨hc, hrest⟩ := List.forall_mem_cons.mp hds
      cases rest with
      | nil =>
        refine (doubleMagnitude?_whole negative hds hne (head?_writtenExponent _)
          (exponent?_written _)).trans ?_
        congr 1
        simp
      | cons c' rest =>
        have hfirst : ∀ a ∈ [c], a.isDigit = true := List.forall_mem_singleton.mpr hc
        refine (doubleMagnitude?_point negative hfirst (List.cons_ne_nil _ _) hrest (hmark _)
          (exponent?_written _)).trans ?_
        congr 1
        rw [List.length_cons]
        push_cast
        ring

/-- **What is written for a double is read as the double.** -/
theorem double?_chars (x : Binary64) : double? (x.chars style) = some x := by
  have hread : doubleMagnitude? x.negative (x.shortest.chars style) = some x := by
    obtain ⟨ds, e, hds, hvalue, hread⟩ := exists_nearest x.negative x.shortest
    rw [hread]
    refine nearest?_of_covers hds ?_
    rw [hvalue]
    exact x.covers_shortest
  obtain ⟨d, ds, hfirst, hd⟩ := (numeral_decimal x.shortest).first
  obtain ⟨hminus, hplus⟩ := ne_sign_of_digit hd
  rw [Binary64.chars]
  cases hsign : x.negative with
  | true =>
    rw [hsign] at hread
    exact hread
  | false =>
    rw [hsign, hfirst] at hread
    rw [hfirst, if_neg Bool.false_ne_true, double?]
    · exact hread
    · exact fun _ heq => hplus (List.cons.inj heq).1
    · exact fun _ heq => hminus (List.cons.inj heq).1

end AccessFilter.Yaml
