import AccessFilter.Json.Reader
import AccessFilter.Json.Writer
import AccessFilter.Proofs.Decimal.Written
import AccessFilter.Proofs.Json.Digits
import Mathlib.Data.List.TakeWhile

/-!
# Written numbers read back

The digits of an integer are read as the integer. The digits of a double need not be read as the
double, but where they are, they are so in front of anything that ends a number.

* `EndsNumber`            what may stand behind a number;
* `Bounded`               a reader that leaves an end of the text and looks no further;
* `bounded_readNumber`    the reader of numbers is one;
* `readNumber_integer`    a written integer reads back.
-/

namespace AccessFilter.Json

/-- Behind a number stands nothing, or a character that does not go on with it. -/
def EndsNumber (rest : List Char) : Prop :=
  ∀ c ∈ rest.head?, c.isDigit = false ∧ c ≠ '.' ∧ c ≠ 'e' ∧ c ≠ 'E'

/-! ## readers that look no further -/

/-- A reader that leaves an end of the text and would do the same with more behind it. -/
def Bounded {α : Type} (reader : Reader α) : Prop :=
  ∀ cs a r, reader cs = .ok (a, r) →
    r <:+ cs ∧ ∀ rest, EndsNumber rest → reader (cs ++ rest) = .ok (a, r ++ rest)

theorem suffix_spanDigits {cs ds r : List Char} (h : spanDigits cs = (ds, r)) : r <:+ cs := by
  obtain ⟨-, rfl⟩ := Prod.mk.inj h
  exact List.dropWhile_suffix _

theorem spanDigits_append_ends {cs rest : List Char} (hrest : EndsNumber rest) :
    spanDigits (cs ++ rest) = ((spanDigits cs).1, (spanDigits cs).2 ++ rest) := by
  have hdigits : ∀ d ∈ (spanDigits cs).1, d.isDigit = true := fun d hd => List.mem_takeWhile_imp hd
  have hends : ∀ c ∈ ((spanDigits cs).2 ++ rest).head?, c.isDigit = false := by
    have hhead := List.head?_dropWhile_not Char.isDigit cs
    rw [spanDigits]
    dsimp only
    cases hr : cs.dropWhile Char.isDigit with
    | nil => exact fun c hc => (hrest c hc).1
    | cons d ds =>
      rw [hr] at hhead
      rintro c ⟨⟩
      exact hhead
  rw [← spanDigits_digits hdigits hends, ← List.append_assoc, spanDigits_append]

theorem eq_of_floatOrFail {x : Option Binary64} {cs r : List Char} {n : Number}
    (h : floatOrFail x cs = .ok (n, r)) : r = cs ∧ ∀ cs', floatOrFail x cs' = .ok (n, cs') := by
  cases x with
  | none => cases h
  | some x =>
    cases h
    exact ⟨rfl, fun _ => rfl⟩

/-! ### exponents -/

def readExponentDigits (down : Bool) : Reader (Bool × Nat) := fun cs =>
  match spanDigits cs with
  | ([], []) => .error .endOfText
  | ([], _) => .error .malformed
  | (ds, rest) => .ok ((down, digitsValue ds), rest)

theorem readExponent_unsigned {c : Char} (plus : c ≠ '+') (minus : c ≠ '-') (cs : List Char) :
    readExponent (c :: cs) = readExponentDigits false (c :: cs) := by
  rw [readExponent]
  · rfl
  · exact fun _ h => plus (List.cons.inj h).1
  · exact fun _ h => minus (List.cons.inj h).1

theorem bounded_readExponentDigits (down : Bool) : Bounded (readExponentDigits down) := by
  intro cs a r h
  rw [readExponentDigits] at h
  split at h
  · cases h
  · cases h
  next ds r' hempty hnone hspan =>
  cases h
  refine ⟨suffix_spanDigits hspan, fun rest hrest => ?_⟩
  rw [readExponentDigits, spanDigits_append_ends hrest, hspan]
  cases ds with
  | nil => exact (hnone rfl).elim
  | cons d ds => rfl

theorem bounded_readExponent : Bounded readExponent := by
  intro cs a r h
  cases cs with
  | nil => cases h
  | cons c cs =>
    by_cases plus : c = '+'
    · subst plus
      obtain ⟨hsuffix, happend⟩ := bounded_readExponentDigits false cs a r h
      exact ⟨hsuffix.trans (List.suffix_cons _ _), happend⟩
    by_cases minus : c = '-'
    · subst minus
      obtain ⟨hsuffix, happend⟩ := bounded_readExponentDigits true cs a r h
      exact ⟨hsuffix.trans (List.suffix_cons _ _), happend⟩
    rw [readExponent_unsigned plus minus] at h
    obtain ⟨hsuffix, happend⟩ := bounded_readExponentDigits false _ a r h
    refine ⟨hsuffix, fun rest hrest => ?_⟩
    rw [List.cons_append, readExponent_unsigned plus minus]
    exact happend rest hrest

theorem bounded_readTail (negative : Bool) (s : Significand) : Bounded (readTail negative s) := by
  intro cs n r h
  cases cs with
  | nil =>
    obtain ⟨rfl, hany⟩ := eq_of_floatOrFail h
    refine ⟨List.suffix_refl _, fun rest hrest => ?_⟩
    cases rest with
    | nil => exact hany []
    | cons c rest =>
      obtain ⟨-, -, he, hE⟩ := hrest c rfl
      rw [List.nil_append, readTail, if_neg (not_or.mpr ⟨he, hE⟩), hany]
  | cons c cs =>
    rw [readTail] at h
    split_ifs at h with hmark
    · cases hexponent : readExponent cs with
      | error f =>
        rw [hexponent] at h
        cases h
      | ok e =>
        rw [hexponent] at h
        obtain ⟨rfl, hany⟩ := eq_of_floatOrFail h
        obtain ⟨hsuffix, happend⟩ := bounded_readExponent cs _ _ hexponent
        refine ⟨hsuffix.trans (List.suffix_cons _ _), fun rest hrest => ?_⟩
        rw [List.cons_append, readTail, if_pos hmark, happend rest hrest]
        exact hany _
    · obtain ⟨rfl, hany⟩ := eq_of_floatOrFail h
      refine ⟨List.suffix_refl _, fun rest _ => ?_⟩
      rw [List.cons_append, readTail, if_neg hmark, hany]

/-! ### numbers -/

/-- What follows the digits before the point. -/
def readAfterDigits (negative : Bool) (ds : List Char) : Reader Number := fun cs =>
  let s := ds.foldl Significand.integerDigit .empty
  match cs with
  | '.' :: rest =>
    match spanDigits rest with
    | ([], []) => .error .endOfText
    | ([], _) => .error .malformed
    | (fs, rest) =>
      readTail negative (fs.foldl Significand.fractionDigit { s with full := false }) rest
  | 'e' :: _ => readTail negative s cs
  | 'E' :: _ => readTail negative s cs
  | _ =>
    match wholeNumber? negative s with
    | some n => .ok (n, cs)
    | none => .error .malformed

/-- At least one digit, and a zero in front stands alone. -/
def IsWhole (ds : List Char) : Prop := ds ≠ [] ∧ ∀ d ds', ds ≠ '0' :: d :: ds'

theorem readNumber_eq {negative : Bool} {cs ds rest : List Char} (hspan : spanDigits cs = (ds, rest))
    (whole : IsWhole ds) : readNumber negative cs = readAfterDigits negative ds rest := by
  rw [readNumber, hspan]
  split
  · next heq => exact absurd (Prod.mk.inj heq).1 whole.1
  · next heq => exact absurd (Prod.mk.inj heq).1 whole.1
  · next heq => exact absurd (Prod.mk.inj heq).1 (whole.2 _ _)
  · next heq =>
    obtain ⟨rfl, rfl⟩ := Prod.mk.inj heq
    rfl

theorem isWhole_of_readNumber {negative : Bool} {cs r : List Char} {n : Number}
    (h : readNumber negative cs = .ok (n, r)) : IsWhole (spanDigits cs).1 := by
  rw [readNumber] at h
  split at h
  · cases h
  · cases h
  · cases h
  next hempty hnone hzero hspan =>
  rw [hspan]
  exact ⟨hnone, hzero⟩

theorem readAfterDigits_whole {negative : Bool} {ds cs : List Char}
    (hcs : ∀ c ∈ cs.head?, c ≠ '.' ∧ c ≠ 'e' ∧ c ≠ 'E') {n : Number}
    (hn : wholeNumber? negative (ds.foldl Significand.integerDigit .empty) = some n) :
    readAfterDigits negative ds cs = .ok (n, cs) := by
  rw [readAfterDigits, hn]
  · rintro _ rfl
    exact (hcs _ rfl).1 rfl
  · rintro _ rfl
    exact (hcs _ rfl).2.1 rfl
  · rintro _ rfl
    exact (hcs _ rfl).2.2 rfl

theorem bounded_readAfterDigits (negative : Bool) (ds : List Char) :
    Bounded (readAfterDigits negative ds) := by
  intro cs n r h
  rw [readAfterDigits.eq_def] at h
  dsimp only at h
  split at h
  · next fraction =>
    split at h
    · cases h
    · cases h
    next fs tail hempty hnone hspan =>
    obtain ⟨hsuffix, happend⟩ := bounded_readTail negative _ _ n r h
    refine ⟨(hsuffix.trans (suffix_spanDigits hspan)).trans (List.suffix_cons _ _),
      fun rest hrest => ?_⟩
    rw [List.cons_append, readAfterDigits, spanDigits_append_ends hrest, hspan]
    cases fs with
    | nil => exact (hnone rfl).elim
    | cons f fs => exact happend rest hrest
  · exact bounded_readTail negative _ _ n r h
  · exact bounded_readTail negative _ _ n r h
  · next hpoint he hE =>
    split at h
    · next m hm =>
      cases h
      refine ⟨List.suffix_refl _, fun rest hrest => readAfterDigits_whole ?_ hm⟩
      cases cs with
      | nil => exact fun c hc => (hrest c hc).2
      | cons c cs =>
        rintro d ⟨⟩
        exact ⟨fun e => hpoint cs (e ▸ rfl), fun e => he cs (e ▸ rfl), fun e => hE cs (e ▸ rfl)⟩
    · cases h

theorem bounded_readNumber (negative : Bool) : Bounded (readNumber negative) := by
  intro cs n r h
  have whole := isWhole_of_readNumber h
  rw [readNumber_eq rfl whole] at h
  obtain ⟨hsuffix, happend⟩ := bounded_readAfterDigits negative _ _ n r h
  refine ⟨hsuffix.trans (suffix_spanDigits rfl), fun rest hrest => ?_⟩
  rw [readNumber_eq (spanDigits_append_ends hrest) whole]
  exact happend rest hrest

/-! ## integers -/

theorem le_foldl_digits (ds : List Char) (n : Nat) :
    n ≤ ds.foldl (fun n c => 10 * n + digitValue c) n := by
  induction ds generalizing n with
  | nil => exact Nat.le_refl n
  | cons d ds ih =>
    have := ih (10 * n + digitValue d)
    rw [List.foldl_cons]
    omega

/-- While a number fits into 64 bits no digit is dropped. -/
theorem foldl_integerDigit {ds : List Char} {n : Nat}
    (h : ds.foldl (fun n c => 10 * n + digitValue c) n < twoPow 64) :
    ds.foldl Significand.integerDigit ⟨n, 0, false⟩
      = ⟨ds.foldl (fun n c => 10 * n + digitValue c) n, 0, false⟩ := by
  induction ds generalizing n with
  | nil => rfl
  | cons d ds ih =>
    rw [List.foldl_cons] at h
    have hfits : ¬ twoPow 64 ≤ 10 * n + digitValue d := by
      have := le_foldl_digits ds (10 * n + digitValue d)
      omega
    have hpush : Significand.integerDigit ⟨n, 0, false⟩ d = ⟨10 * n + digitValue d, 0, false⟩ := by
      rw [Significand.integerDigit, Significand.push?]
      simp only [Bool.false_or, decide_eq_true_eq, if_neg hfits]
    rw [List.foldl_cons, List.foldl_cons, hpush, ih h]

theorem significand_toDigits {n : Nat} (h : n < twoPow 64) :
    (Nat.toDigits 10 n).foldl Significand.integerDigit .empty = ⟨n, 0, false⟩ := by
  have hvalue : (Nat.toDigits 10 n).foldl (fun n c => 10 * n + digitValue c) 0 = n :=
    digitsValue_toDigits n
  show (Nat.toDigits 10 n).foldl Significand.integerDigit ⟨0, 0, false⟩ = _
  rw [foldl_integerDigit (by rw [hvalue]; exact h), hvalue]

theorem wholeNumber?_integer {i : Int} (h : IntegerRange i) :
    wholeNumber? (decide (i < 0)) ⟨i.natAbs, 0, false⟩ = some (.integer i h) := by
  rw [wholeNumber?]
  dsimp only
  rw [if_neg Bool.false_ne_true]
  by_cases hi : i < 0
  · have hvalue : -(i.natAbs : Int) = i := by omega
    have hne : ¬ i.natAbs = 0 := by omega
    simp only [decide_eq_true hi, if_true, hne, if_false, hvalue, h, dif_pos]
  · have hvalue : (i.natAbs : Int) = i := by omega
    simp only [decide_eq_false hi, Bool.false_eq_true, if_false, hvalue, h, dif_pos]

theorem natAbs_lt {i : Int} (h : IntegerRange i) : i.natAbs < twoPow 64 := by
  obtain ⟨hlow, hhigh⟩ := h
  show i.natAbs < 18446744073709551616
  omega

/-- The digits of a number have no zero in front. -/
theorem isWhole_toDigits (n : Nat) : IsWhole (Nat.toDigits 10 n) := by
  refine ⟨Nat.toDigits_ne_nil, fun d ds h => ?_⟩
  rcases Nat.eq_zero_or_pos n with rfl | hn
  · rw [Nat.toDigits_zero] at h
    exact List.cons_ne_nil d ds (List.cons.inj h).2.symm
  · exact head?_toDigits hn (h ▸ rfl)

/-- **The digits of an integer are read as the integer**, its sign having been read. -/
theorem readNumber_integer {i : Int} (h : IntegerRange i) {rest : List Char}
    (hrest : EndsNumber rest) :
    readNumber (decide (i < 0)) (Nat.toDigits 10 i.natAbs ++ rest) = .ok (.integer i h, rest) := by
  have hdigits : ∀ d ∈ Nat.toDigits 10 i.natAbs, d.isDigit = true := fun d hd =>
    isDigit_of_mem_toDigits hd
  have hspan := spanDigits_digits hdigits fun c hc => (hrest c hc).1
  rw [readNumber_eq hspan (isWhole_toDigits _)]
  refine readAfterDigits_whole (fun c hc => (hrest c hc).2) ?_
  rw [significand_toDigits (natAbs_lt h), wholeNumber?_integer h]

end AccessFilter.Json
