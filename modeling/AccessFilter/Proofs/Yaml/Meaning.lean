import AccessFilter.Proofs.Yaml.Double
import AccessFilter.Proofs.Yaml.Tokens

/-!
# The meaning of written scalars

A string is written plain only where it would read as itself; null, the booleans and the numbers are
written plain and read as themselves.

* `ofPlain_eq_string`   the only string that a plain scalar can mean;
* `ofPlain_of_styleOf`  a string that is written plain;
* `ofPlain_number`      a number is written plain and means itself.
-/

namespace AccessFilter.Yaml

/-- What a scalar means that is no whole number. -/
theorem ofFloat_eq_string {s t : String}
    (h : (if isPadded s.toList then some (Value.string s)
      else some ((doubleValue? s).getD (.string s))) = some (.string t)) : t = s := by
  split at h
  · cases h
    rfl
  · rw [doubleValue?] at h
    split at h
    · cases h
    · cases hx : double? s.toList with
      | none =>
        rw [hx] at h
        cases h
        rfl
      | some x =>
        rw [hx] at h
        cases h

/-- The only string that a plain scalar can mean is its own text. -/
theorem ofPlain_eq_string {s t : String} (h : Value.ofPlain s = some (.string t)) : t = s := by
  rw [Value.ofPlain] at h
  split at h
  · cases h
  split at h
  · cases h
  dsimp only at h
  split at h
  · split at h
    · cases h
    · split at h
      · cases h
      · exact ofFloat_eq_string h
  · exact ofFloat_eq_string h

theorem ofPlain_of_reads {s : String} (h : readsOtherwise s = false) :
    Value.ofPlain s = some (.string s) := by
  rw [readsOtherwise] at h
  split at h
  · next heq => rw [heq, ofPlain_eq_string heq]
  · cases h

/-- A string that is written plain reads as itself. -/
theorem ofPlain_of_styleOf {s : String} (h : styleOf s = .plain) :
    Value.ofPlain s = some (.string s) := by
  rw [styleOf] at h
  split at h
  · split at h <;> cases h
  · split at h
    · next hplain =>
      have hreads := (Bool.and_eq_true_iff.mp hplain).2
      exact ofPlain_of_reads ((Bool.not_eq_true' _).mp hreads)
    · split at h <;> cases h

theorem not_null_of_styleOf {s : String} (h : styleOf s = .plain) :
    (s.isEmpty || isNullWord s) = false := by
  have hplain := ofPlain_of_styleOf h
  rw [Value.ofPlain] at hplain
  split at hplain
  · cases hplain
  · next hnull => exact Bool.eq_false_iff.mpr hnull

/-! ## numbers -/

/-- Whether a text starts with a digit behind a minus sign or none. -/
def startsWithDigit : List Char → Bool
  | '-' :: d :: _ => d.isDigit
  | d :: _ => d.isDigit
  | [] => false

theorem startsWithDigit_numeral {cs : List Char} (h : Numeral cs) :
    startsWithDigit cs = true ∧ startsWithDigit ('-' :: cs) = true := by
  obtain ⟨d, ds, rfl, hd⟩ := h.first
  refine ⟨?_, hd⟩
  rw [startsWithDigit]
  · exact hd
  · exact fun _ _ heq => absurd heq (ne_sign_of_digit hd).1

theorem not_mem_words {words : List String} {cs : List Char} (hcs : startsWithDigit cs = true)
    (hwords : ∀ w ∈ words, startsWithDigit w.toList = false) : String.ofList cs ∉ words := by
  intro hmem
  have hfalse := hwords _ hmem
  rw [String.toList_ofList, hcs] at hfalse
  cases hfalse

theorem magnitude?_numeral {cs : List Char} (h : Numeral cs) :
    magnitude? cs = if isPadded cs then none else digitsIn? 10 cs := by
  have hother : ∀ (c : Char) (ds : List Char), isNumeralChar c = false → cs ≠ '0' :: c :: ds := by
    rintro c ds hc rfl
    have := h.chars c (List.mem_cons_of_mem _ List.mem_cons_self)
    rw [hc] at this
    cases this
  rw [magnitude?]
  · exact fun ds => hother 'x' ds rfl
  · exact fun ds => hother 'o' ds rfl
  · exact fun ds => hother 'b' ds rfl

theorem wholeNumber?_numeral {cs : List Char} (h : Numeral cs) {k : Nat}
    (hk : magnitude? cs = some k) :
    wholeNumber? cs = some (k : Int) ∧ wholeNumber? ('-' :: cs) = some (-(k : Int)) := by
  obtain ⟨d, ds, rfl, hd⟩ := h.first
  obtain ⟨hminus, hplus⟩ := ne_sign_of_digit hd
  constructor
  · rw [wholeNumber?, hk]
    · rfl
    · exact fun _ heq => hminus (List.cons.inj heq).1
    · exact fun _ heq => hplus (List.cons.inj heq).1
  · rw [wholeNumber?, hk]
    rfl

theorem wholeNumber?_eq_none {cs : List Char} (h : Numeral cs) (hnone : magnitude? cs = none) :
    wholeNumber? cs = none ∧ wholeNumber? ('-' :: cs) = none := by
  obtain ⟨d, ds, rfl, hd⟩ := h.first
  obtain ⟨hminus, hplus⟩ := ne_sign_of_digit hd
  constructor
  · rw [wholeNumber?, hnone]
    · rfl
    · exact fun _ heq => hminus (List.cons.inj heq).1
    · exact fun _ heq => hplus (List.cons.inj heq).1
  · rw [wholeNumber?, hnone]
    rfl

theorem unsigned_numeral {cs : List Char} (h : Numeral cs) :
    unsigned cs = cs ∧ unsigned ('-' :: cs) = cs := by
  obtain ⟨d, ds, rfl, hd⟩ := h.first
  obtain ⟨hminus, hplus⟩ := ne_sign_of_digit hd
  refine ⟨?_, rfl⟩
  rw [unsigned]
  · exact fun _ heq => hplus (List.cons.inj heq).1
  · exact fun _ heq => hminus (List.cons.inj heq).1

/-! ### integers -/

/-- The digits of a number have no zero in front. -/
theorem isPadded_toDigits (n : Nat) : isPadded (Nat.toDigits 10 n) = false := by
  rcases Nat.eq_zero_or_pos n with rfl | hn
  · rw [Nat.toDigits_zero]
    rfl
  · have hhead := head?_toDigits hn
    rw [isPadded, (unsigned_numeral (numeral_digits n)).1]
    split
    · next heq =>
      rw [heq] at hhead
      exact absurd rfl hhead
    · rfl

theorem magnitude?_toDigits (n : Nat) : magnitude? (Nat.toDigits 10 n) = some n := by
  rw [magnitude?_numeral (numeral_digits n), isPadded_toDigits, if_neg Bool.false_ne_true,
    digitsIn?_digits Nat.toDigits_ne_nil fun d hd => isDigit_of_mem_toDigits hd,
    Json.digitsValue_toDigits]

theorem wholeNumber?_intChars (i : Int) : wholeNumber? (Json.intChars i) = some i := by
  obtain ⟨hwhole, hnegative⟩ := wholeNumber?_numeral (numeral_digits i.natAbs)
    (magnitude?_toDigits i.natAbs)
  rw [Json.intChars]
  split
  · rw [hnegative]
    congr 1
    omega
  · rw [hwhole]
    congr 1
    omega

/-! ### doubles -/

theorem mem_writtenExponent (e : Int) : 'e' ∈ writtenExponent e := by
  rw [writtenExponent]
  split <;> exact List.mem_cons_self

/-- A written decimal has a point or an exponent, so it is no whole number. -/
theorem exists_not_digit (d : Decimal) : ∃ c ∈ d.chars style, c.isDigit = false := by
  rw [Decimal.chars]
  dsimp only
  split
  · split
    · exact ⟨'.', List.mem_append_right _ List.mem_cons_self, rfl⟩
    split
    · exact ⟨'.', List.mem_append_right _ List.mem_cons_self, rfl⟩
    · exact ⟨'.', List.mem_append_left _ (List.mem_cons_of_mem _ List.mem_cons_self), rfl⟩
  · exact ⟨'e', List.mem_append_right _ (mem_writtenExponent _), rfl⟩

theorem isPadded_eq_false {cs : List Char} (h : Numeral cs) {c : Char} (hc : c ∈ cs)
    (hdigit : c.isDigit = false) : isPadded cs = false := by
  rw [isPadded, (unsigned_numeral h).1]
  split
  · next d ds =>
    rw [← Bool.not_eq_true, List.all_eq_true]
    intro hall
    rcases List.mem_cons.mp hc with rfl | hc
    · cases hdigit
    · rw [hall c hc] at hdigit
      cases hdigit
  · rfl

theorem wholeNumber?_chars (x : Binary64) :
    wholeNumber? (x.chars style) = none ∧ isPadded (x.chars style) = false := by
  have hnumeral := numeral_decimal x.shortest
  obtain ⟨c, hc, hdigit⟩ := exists_not_digit x.shortest
  have hpadded := isPadded_eq_false hnumeral hc hdigit
  have hnone : magnitude? (x.shortest.chars style) = none := by
    rw [magnitude?_numeral hnumeral, hpadded, if_neg Bool.false_ne_true,
      digitsIn?_eq_none hc hdigit]
  obtain ⟨hwhole, hnegative⟩ := wholeNumber?_eq_none hnumeral hnone
  rw [Binary64.chars]
  split
  · refine ⟨hnegative, ?_⟩
    rw [isPadded, (unsigned_numeral hnumeral).2]
    rw [isPadded, (unsigned_numeral hnumeral).1] at hpadded
    exact hpadded
  · exact ⟨hwhole, hpadded⟩

/-! ### plain numbers -/

/-- A number is no spelling of anything else. -/
theorem not_word {cs : List Char} (h : startsWithDigit cs = true) :
    ((String.ofList cs).isEmpty || isNullWord (String.ofList cs)) = false ∧
      boolWord? (String.ofList cs) = none ∧ isNonFinite (String.ofList cs) = false := by
  have hempty : (String.ofList cs).isEmpty = false := by
    rw [← Bool.not_eq_true, String.isEmpty_iff]
    intro hnil
    have hcs : cs = [] := by rw [← String.toList_ofList (l := cs), hnil]; rfl
    rw [hcs] at h
    cases h
  refine ⟨?_, ?_, ?_⟩
  · rw [hempty, isNullWord, decide_eq_false (not_mem_words h (by decide))]
    rfl
  · rw [boolWord?, if_neg (not_mem_words h (by decide)), if_neg (not_mem_words h (by decide))]
  · rw [isNonFinite, decide_eq_false (not_mem_words h (by decide))]

theorem startsWithDigit_number (n : Number) : startsWithDigit (n.chars style) = true := by
  obtain ⟨cs, hcs, h | h⟩ := numeral_number n
  · rw [h]
    exact (startsWithDigit_numeral hcs).1
  · rw [h]
    exact (startsWithDigit_numeral hcs).2

/-- **A number that is written plain reads as itself.** -/
theorem ofPlain_number (n : Number) :
    Value.ofPlain (String.ofList (n.chars style)) = some (.number n) := by
  obtain ⟨hnull, hbool, hfinite⟩ := not_word (startsWithDigit_number n)
  rw [Value.ofPlain, hnull, if_neg Bool.false_ne_true, hbool]
  dsimp only
  rw [String.toList_ofList]
  cases n with
  | integer i hi =>
    rw [Number.chars, wholeNumber?_intChars]
    dsimp only
    rw [Number.ofInt?, dif_pos hi]
  | float x =>
    obtain ⟨hwhole, hpadded⟩ := wholeNumber?_chars x
    rw [Number.chars] at hfinite ⊢
    rw [hwhole, hpadded, doubleValue?, hfinite, String.toList_ofList, double?_chars]
    rfl

end AccessFilter.Yaml
