import AccessFilter.Proofs.Decimal.Written
import AccessFilter.Proofs.Yaml.Scalar.Quoted
import AccessFilter.Yaml.Writer

/-!
# Written numbers

A number is written with digits, a point, a minus sign and the mark of an exponent, and starts with a
digit behind its sign. So it can stand plain.

* `Numeral`                 a number without its sign;
* `numeral_number`          what is written for a number;
* `isPlainSafe_number`      a written number can stand plain.
-/

namespace AccessFilter.Yaml

def isNumeralChar (c : Char) : Bool := c.isDigit || c = '.' || c = 'e' || c = '-'

/-- A number without its sign. -/
structure Numeral (cs : List Char) : Prop where
  chars : ∀ c ∈ cs, isNumeralChar c = true
  first : ∃ d ds, cs = d :: ds ∧ d.isDigit = true

/-! ## what is written -/

theorem isNumeralChar_of_digit {c : Char} (h : c.isDigit = true) : isNumeralChar c = true := by
  rw [isNumeralChar, h]
  rfl

theorem numeral_digits (n : Nat) : Numeral (Nat.toDigits 10 n) := by
  obtain ⟨d, ds, hds, hdigits⟩ := exists_toDigits n
  rw [hds]
  exact ⟨fun c hc => isNumeralChar_of_digit (hdigits c hc), d, ds, rfl,
    hdigits d List.mem_cons_self⟩

/-- The exponent that is written for an integer. -/
def writtenExponent (e : Int) : List Char :=
  if 0 ≤ e then style.exponentMark.toList ++ Nat.toDigits 10 e.toNat
  else 'e' :: '-' :: Nat.toDigits 10 (-e).toNat

theorem numeral_decimal (d : Decimal) : Numeral (d.chars style) := by
  refine ⟨fun c hc => ?_, d.exists_chars style⟩
  rcases d.mem_chars style hc with h | rfl | rfl | rfl | h
  · exact isNumeralChar_of_digit h
  · rfl
  · rfl
  · rfl
  · rw [List.mem_singleton.mp (show c ∈ ['e'] from h)]
    rfl

/-- **What is written for a number**: a sign or none, and a number without one. -/
theorem numeral_number (n : Number) :
    ∃ cs, Numeral cs ∧ (n.chars style = cs ∨ n.chars style = '-' :: cs) := by
  cases n with
  | integer i hi =>
    refine ⟨_, numeral_digits i.natAbs, ?_⟩
    rw [Number.chars, Json.intChars]
    split
    · exact .inr rfl
    · exact .inl rfl
  | float x =>
    refine ⟨_, numeral_decimal x.shortest, ?_⟩
    rw [Number.chars, Binary64.chars]
    split
    · exact .inr rfl
    · exact .inl rfl

/-! ## standing plain -/

theorem isNumeralChar_cases {c : Char} (h : isNumeralChar c = true) :
    c.isDigit = true ∨ c = '.' ∨ c = 'e' ∨ c = '-' := by
  simpa [isNumeralChar, or_assoc] using h

/-- A character of a number is shown and marks nothing. -/
theorem isNumeralChar_plain {c : Char} (h : isNumeralChar c = true) :
    isAscii c = true ∧ c ≠ ' ' ∧ c ≠ ':' ∧ c ≠ '#' := by
  rcases isNumeralChar_cases h with hd | rfl | rfl | rfl
  · refine ⟨?_, ?_, ?_, ?_⟩
    · obtain ⟨hlow, hhigh⟩ := toNat_of_isDigit hd
      rw [isAscii, decide_eq_true (by omega), decide_eq_true (by omega)]
      rfl
    all_goals
      rintro rfl
      cases hd
  · decide
  · decide
  · decide

theorem hasColonEnd_of_no_colon {cs : List Char} (h : ∀ c ∈ cs, c ≠ ':') :
    hasColonEnd cs = false := by
  induction cs with
  | nil => rfl
  | cons c cs ih =>
    obtain ⟨hc, hcs⟩ := List.forall_mem_cons.mp h
    rw [hasColonEnd, decide_eq_false hc, ih hcs]
    rfl

theorem anyPair_eq_false {p : Char → Char → Bool} {cs : List Char}
    (h : ∀ b ∈ cs, ∀ a, p a b = false) : anyPair p cs = false := by
  induction cs with
  | nil => rfl
  | cons a cs ih =>
    cases cs with
    | nil => rfl
    | cons b cs =>
      rw [anyPair, h b (by simp), ih fun c hc => h c (List.mem_cons_of_mem _ hc)]
      rfl

theorem startsLikeMark_digit {d : Char} (hd : d.isDigit = true) (ds : List Char) :
    startsLikeMark (d :: ds) = false ∧ startsLikeMark ('-' :: d :: ds) = false := by
  have hnot : ∀ ms : List Char, ms.all (!·.isDigit) = true → d ∉ ms := by
    intro ms hms hmem
    have := List.all_eq_true.mp hms d hmem
    rw [hd] at this
    cases this
  have hgap : isGap d = false := by
    obtain ⟨hascii, hblank, -⟩ := isNumeralChar_plain (isNumeralChar_of_digit hd)
    exact not_gap_of_shown (isShown_of_ascii hascii).1 (isShown_of_ascii hascii).2 hblank
  constructor
  · rw [startsLikeMark]
    · rw [decide_eq_false (hnot _ rfl), decide_eq_false (hnot _ rfl), Bool.false_and]
      rfl
    · exact fun _ h _ => hnot ['-'] rfl (List.mem_singleton.mpr h)
    · exact fun _ h _ => hnot ['.'] rfl (List.mem_singleton.mpr h)
  · rw [startsLikeMark]
    · rw [show atGap (d :: ds) = isGap d from rfl, hgap, Bool.and_false]
      rfl
    · exact fun _ _ h => hnot ['-'] rfl (List.mem_singleton.mpr (List.cons.inj h).1)
    · exact fun _ h _ => absurd h (by decide)

/-- **A number can stand plain**, with a sign or without one. -/
theorem isPlainSafe_numeral {cs : List Char} (h : Numeral cs) :
    isPlainSafe cs = true ∧ isPlainSafe ('-' :: cs) = true := by
  have hsafe : ∀ ds : List Char, (∀ c ∈ ds, isNumeralChar c = true) → startsLikeMark ds = false →
      isPlainSafe ds = true := by
    intro ds hds hmark
    have hplain := fun c hc => isNumeralChar_plain (hds c hc)
    have hends : ds.head? ≠ some ' ' ∧ ds.getLast? ≠ some ' ' :=
      ⟨fun e => (hplain ' ' (List.mem_of_head? e)).2.1 rfl,
        fun e => (hplain ' ' (List.mem_of_getLast? e)).2.1 rfl⟩
    simp only [isPlainSafe, Bool.and_eq_true, List.all_eq_true, Bool.not_eq_true', List.any_eq_false,
      bne_iff_ne]
    refine ⟨⟨⟨⟨⟨⟨fun c hc => (isShown_of_ascii (hplain c hc).1).1, fun c hc => ?_⟩, hends.1⟩,
      hends.2⟩, hmark⟩, hasColonEnd_of_no_colon fun c hc => (hplain c hc).2.2.1⟩, ?_⟩
    · rw [(isShown_of_ascii (hplain c hc).1).2]
      exact Bool.false_ne_true
    · refine anyPair_eq_false fun b hb a => ?_
      rw [decide_eq_false (hplain b hb).2.2.2, Bool.and_false]
  obtain ⟨d, ds, rfl, hd⟩ := h.first
  obtain ⟨hmark, hminus⟩ := startsLikeMark_digit hd ds
  exact ⟨hsafe _ h.chars hmark, hsafe _ (List.forall_mem_cons.mpr ⟨rfl, h.chars⟩) hminus⟩

theorem isPlainSafe_number (n : Number) :
    isPlainSafe (n.chars style) = true ∧ n.chars style ≠ [] := by
  obtain ⟨cs, hcs, h | h⟩ := numeral_number n
  · obtain ⟨d, ds, hd, -⟩ := hcs.first
    rw [h]
    exact ⟨(isPlainSafe_numeral hcs).1, hd ▸ List.cons_ne_nil d ds⟩
  · rw [h]
    exact ⟨(isPlainSafe_numeral hcs).2, List.cons_ne_nil _ _⟩

end AccessFilter.Yaml
