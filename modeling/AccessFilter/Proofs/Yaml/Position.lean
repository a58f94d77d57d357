import AccessFilter.Yaml.Scalar.Written

/-!
# Places behind a piece of text

A place is found by comparing what is left of the text with what was asked for. Here it is computed
from the piece that was passed.

* `exists_span`                 a text and the characters of a kind that it starts with;
* `Position.after`              the place behind a piece of text;
* `Position.before_append`      it is the place that is found;
* `after_line`                  a piece without line breaks moves the column and the index only;
* `after_indentation`           a line break and blanks behind it give their number as the column, on
                                a further line.
-/

namespace AccessFilter.Yaml

/-! ## blanks and line breaks -/

theorem isBreak_blank : isBreak ' ' = false := by decide

theorem isBreak_feed : isBreak '\n' = true := by decide

theorem ne_of_isBreak_false {b c : Char} (hc : isBreak c = false) (hb : isBreak b = true) :
    c ≠ b := by
  rintro rfl
  rw [hc] at hb
  cases hb

theorem isBlank_of_isBreak {b : Char} (h : isBreak b = true) : isBlank b = false := by
  cases hb : isBlank b with
  | false => rfl
  | true =>
    simp only [isBlank, Bool.or_eq_true, decide_eq_true_eq] at hb
    rcases hb with rfl | rfl <;> cases h

theorem isGap_eq_false_iff (c : Char) :
    isGap c = false ↔ c ≠ ' ' ∧ c ≠ '\t' ∧ isBreak c = false := by
  simp only [isGap, isBlank, Bool.or_eq_false_iff, decide_eq_false_iff_not, and_assoc]

theorem isBreak_of_mem_blanks {n : Nat} {c : Char} (h : c ∈ blanks n) : isBreak c = false := by
  rw [List.eq_of_mem_replicate h]
  exact isBreak_blank

/-- A text starts with a number of characters of a kind, and what is left does not. -/
theorem exists_span (p : Char → Bool) (cs : List Char) : ∃ as r, cs = as ++ r ∧
    (∀ c ∈ as, p c = true) ∧ ∀ c, r.head? = some c → p c = false := by
  induction cs with
  | nil => exact ⟨[], [], rfl, nofun, nofun⟩
  | cons c cs ih =>
    cases hc : p c with
    | true =>
      obtain ⟨as, r, rfl, has, hr⟩ := ih
      exact ⟨c :: as, r, rfl, List.forall_mem_cons.mpr ⟨hc, has⟩, hr⟩
    | false => exact ⟨[], c :: cs, rfl, nofun, fun d hd => Option.some.inj hd ▸ hc⟩

def octetCount : List Char → Nat
  | [] => 0
  | c :: cs => c.utf8Size + octetCount cs

theorem octetCount_cons (c : Char) (cs : List Char) :
    octetCount (c :: cs) = c.utf8Size + octetCount cs := rfl

theorem octetCount_append (cs ds : List Char) :
    octetCount (cs ++ ds) = octetCount cs + octetCount ds := by
  induction cs with
  | nil => exact (Nat.zero_add _).symm
  | cons c cs ih => rw [List.cons_append, octetCount_cons, ih, octetCount_cons, Nat.add_assoc]

theorem utf8ByteSize_ofList (cs : List Char) :
    (String.ofList cs).utf8ByteSize = octetCount cs := by
  induction cs with
  | nil => rfl
  | cons c cs ih =>
    rw [String.ofList_cons, String.utf8ByteSize_append, String.utf8ByteSize_singleton, ih,
      octetCount_cons]

namespace Position

/-! ## the place behind a piece of text -/

/-- The place behind a piece of text that is followed by `rest`. -/
def after (p : Position) (rest : List Char) : List Char → Position
  | [] => p
  | c :: cs => (p.next c (cs ++ rest)).after rest cs

theorem after_append (p : Position) (rest cs ds : List Char) :
    p.after rest (cs ++ ds) = (p.after (ds ++ rest) cs).after rest ds := by
  induction cs generalizing p with
  | nil => rfl
  | cons c cs ih =>
    show (p.next c (cs ++ ds ++ rest)).after rest (cs ++ ds) = _
    rw [List.append_assoc, ih]
    rfl

theorem before_append (p : Position) (cs rest : List Char) :
    before rest p (cs ++ rest) = p.after rest cs := by
  induction cs generalizing p with
  | nil =>
    cases rest with
    | nil => rfl
    | cons c rest =>
      rw [List.nil_append, before]
      cases decideSame (c :: rest) (c :: rest) with
      | isTrue => rfl
      | isFalse h => exact absurd rfl h
  | cons c cs ih =>
    rw [List.cons_append, before]
    cases decideSame (c :: (cs ++ rest)) rest with
    | isTrue h =>
      have hlen := congrArg List.length h
      rw [List.length_cons, List.length_append] at hlen
      omega
    | isFalse => exact ih _

/-! ## on one line -/

theorem next_of_not_break (p : Position) {c : Char} (rest : List Char) (h : isBreak c = false) :
    p.next c rest = ⟨p.line, p.column + 1, p.index + c.utf8Size⟩ := by
  have hr : c ≠ '\r' := ne_of_isBreak_false h (by decide)
  rw [next, decide_eq_false hr, Bool.false_and, if_neg Bool.false_ne_true, h,
    if_neg Bool.false_ne_true]

theorem after_line (p : Position) (rest : List Char) {cs : List Char}
    (h : ∀ c ∈ cs, isBreak c = false) :
    p.after rest cs = ⟨p.line, p.column + cs.length, p.index + octetCount cs⟩ := by
  induction cs generalizing p with
  | nil => rfl
  | cons c cs ih =>
    obtain ⟨hc, hcs⟩ := List.forall_mem_cons.mp h
    rw [after, next_of_not_break p _ hc, ih _ hcs, octetCount_cons, List.length_cons]
    simp only [Position.mk.injEq, true_and]
    omega

theorem column_after_char (p : Position) (rest : List Char) {c : Char} (h : isBreak c = false) :
    (p.after rest [c]).column = p.column + 1 := by
  rw [after_line p rest (List.forall_mem_singleton.mpr h)]
  rfl

/-! ## over line breaks -/

theorem line_le_next (p : Position) (c : Char) (rest : List Char) :
    p.line ≤ (p.next c rest).line := by
  rw [next]
  split
  · exact Nat.le_refl _
  · split
    · exact Nat.le_succ _
    · exact Nat.le_refl _

theorem line_le_after (p : Position) (rest cs : List Char) : p.line ≤ (p.after rest cs).line := by
  induction cs generalizing p with
  | nil => exact Nat.le_refl _
  | cons c cs ih => exact Nat.le_trans (line_le_next p c _) (ih _)

theorem next_of_break (p : Position) {b : Char} (rest : List Char) (hb : isBreak b = true)
    (hr : b ≠ '\r') : p.next b rest = ⟨p.line + 1, 0, p.index + b.utf8Size⟩ := by
  rw [next, decide_eq_false hr, Bool.false_and, if_neg Bool.false_ne_true, if_pos hb]

/-- Behind a line break and some blanks: they count as columns of a further line. -/
theorem after_indentation (p : Position) (rest cs : List Char) {b : Char} (n : Nat)
    (hb : isBreak b = true) (hr : b ≠ '\r') :
    (p.after rest (cs ++ b :: blanks n)).column = n ∧
      p.line < (p.after rest (cs ++ b :: blanks n)).line := by
  rw [after_append, after, next_of_break _ _ hb hr,
    after_line _ _ fun _ hc => isBreak_of_mem_blanks hc]
  have hlen : (blanks n).length = n := List.length_replicate
  refine ⟨by rw [hlen, Nat.zero_add], ?_⟩
  exact Nat.lt_succ_of_le (line_le_after p _ cs)

end Position

end AccessFilter.Yaml
