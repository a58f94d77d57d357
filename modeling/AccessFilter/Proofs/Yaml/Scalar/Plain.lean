import AccessFilter.Proofs.Yaml.Position
import AccessFilter.Yaml.Scalar.Plain

/-!
# Plain scalars read back

A string that can stand plain is read whole: it breaks into words at its blanks, and neither a colon
nor a comment nor the end of a line is found before its own end. What stands behind it, the colon of a
key or a line feed and the indentation of the next line, stops it.

* `PlainRun`           a string, or the rest of one, in which a plain scalar does not end;
* `PlainStop`          a text at which a plain scalar ends, and where the reader goes on;
* `plainStop_colon`, `plainStop_feed`   the two texts that stand behind a written scalar;
* `readPlain_of_safe`  a string that can stand plain reads back.
-/

namespace AccessFilter.Yaml

/-! ## neighbours and blanks -/

theorem anyPair_append_right {p : Char → Char → Bool} (as : List Char) {bs : List Char}
    (h : anyPair p (as ++ bs) = false) : anyPair p bs = false := by
  induction as with
  | nil => exact h
  | cons a as ih =>
    refine ih ?_
    cases hl : as ++ bs with
    | nil => rfl
    | cons b rest =>
      rw [List.cons_append, hl, anyPair] at h
      exact (Bool.or_eq_false_iff.mp h).2

theorem hasColonEnd_append_right (as : List Char) {bs : List Char}
    (h : hasColonEnd (as ++ bs) = false) : hasColonEnd bs = false := by
  induction as with
  | nil => exact h
  | cons a as ih => exact ih (Bool.or_eq_false_iff.mp h).2

theorem getLast?_append_right {α : Type} (as : List α) {bs : List α} (a : α)
    (h : (as ++ bs).getLast? ≠ some a) : bs.getLast? ≠ some a := by
  intro hb
  rw [List.getLast?_append, hb] at h
  exact h rfl

theorem exists_blanks (cs : List Char) : ∃ k r, cs = blanks k ++ r ∧ r.head? ≠ some ' ' := by
  induction cs with
  | nil => exact ⟨0, [], rfl, nofun⟩
  | cons c cs ih =>
    by_cases hc : c = ' '
    · obtain ⟨k, r, rfl, hr⟩ := ih
      exact ⟨k + 1, r, by rw [hc]; rfl, hr⟩
    · refine ⟨0, c :: cs, rfl, fun h => hc ?_⟩
      exact Option.some.inj h

theorem exists_word (cs : List Char) : ∃ w r, cs = w ++ r ∧ (∀ c ∈ w, c ≠ ' ') ∧
    ∀ c, r.head? = some c → c = ' ' := by
  obtain ⟨w, r, hsplit, hw, hr⟩ := exists_span (· ≠ ' ') cs
  exact ⟨w, r, hsplit, fun c hc => of_decide_eq_true (hw c hc),
    fun c hc => Decidable.not_not.mp (of_decide_eq_false (hr c hc))⟩

theorem blanks_succ_append (k : Nat) (r : List Char) :
    blanks (k + 1) ++ r = blanks k ++ ' ' :: r := by
  rw [blanks, List.replicate_succ', List.append_assoc]
  rfl

theorem isBlank_blank : isBlank ' ' = true := by decide

theorem not_gap_of_shown {c : Char} (hs : isShown c = true) (hb : isBreak c = false)
    (hc : c ≠ ' ') : isGap c = false := by
  refine (isGap_eq_false_iff c).mpr ⟨hc, ?_, hb⟩
  rintro rfl
  exact absurd hs (by decide)

theorem isBlank_of_not_gap {c : Char} (h : isGap c = false) : isBlank c = false :=
  (Bool.or_eq_false_iff.mp h).1

theorem isBreak_of_not_gap {c : Char} (h : isGap c = false) : isBreak c = false :=
  (Bool.or_eq_false_iff.mp h).2

/-! ## gaps -/

theorem read_blanks (limit k : Nat) {c : Char} (rest : List Char) (h : isGap c = false) :
    Gap.read limit (blanks k ++ c :: rest) = some (⟨blanks k, [], 0⟩, c :: rest) := by
  induction k with
  | zero =>
    show Gap.read limit (c :: rest) = _
    rw [Gap.read, isBlank_of_not_gap h, if_neg Bool.false_ne_true, isBreak_of_not_gap h,
      if_neg Bool.false_ne_true]
    rfl
  | succ k ih =>
    show Gap.read limit (' ' :: (blanks k ++ c :: rest)) = _
    rw [Gap.read, if_pos isBlank_blank, ih]
    rfl

theorem readLines_blanks (limit column n : Nat) (rest : List Char) :
    Gap.readLines limit column (blanks n ++ rest) = Gap.readLines limit (column + n) rest := by
  induction n generalizing column with
  | zero => rfl
  | succ n ih =>
    show Gap.readLines limit column (' ' :: (blanks n ++ rest)) = _
    have htab : (decide (' ' = '\t') && decide (column < limit)) = false := rfl
    rw [Gap.readLines, htab, if_neg Bool.false_ne_true, if_pos isBlank_blank, ih, Nat.add_assoc,
      Nat.add_comm 1]
    nofun

theorem readLines_stop (limit column : Nat) {c : Char} (rest : List Char) (h : isGap c = false) :
    Gap.readLines limit column (c :: rest) = some ([], column, c :: rest) := by
  obtain ⟨-, ht, hb⟩ := (isGap_eq_false_iff c).mp h
  have htab : (decide (c = '\t') && decide (column < limit)) = false := by
    rw [decide_eq_false ht, Bool.false_and]
  have hr : c ≠ '\r' := ne_of_isBreak_false hb (by decide)
  rw [Gap.readLines, htab, if_neg Bool.false_ne_true, isBlank_of_not_gap h, if_neg Bool.false_ne_true,
    hb, if_neg Bool.false_ne_true]
  exact fun _ hc _ => hr hc

/-! ## what stands behind a scalar -/

/-- What is left of a text at the start of its next token. -/
def AtToken (x : List Char) : Prop :=
  ∀ c, x.head? = some c → isGap c = false ∧ c ≠ '#' ∧ c ≠ '\ufeff'

theorem atToken_char {c : Char} (h : isGap c = false ∧ c ≠ '#' ∧ c ≠ '\ufeff') (tail : List Char) :
    AtToken (c :: tail) := by
  intro d hd
  cases hd
  exact h

/-- A text at which a plain scalar ends; whether the reader crosses a line there, and what is left. -/
structure PlainStop (limit : Nat) (tail : List Char) (crosses : Bool) (rest : List Char) : Prop where
  word : plainWord false tail = some ([], tail)
  stops : ∀ fuel, plainTail false limit (fuel + 1) tail = some ⟨[], crosses, rest⟩

theorem plainStop_colon (limit : Nat) {after : List Char} (h : atGap after = true) :
    PlainStop limit (':' :: after) false (':' :: after) := by
  have hgap : isGap ':' = false := by decide
  constructor
  · rw [plainWord, hgap, h]
    rfl
  · intro fuel
    have hread := read_blanks limit 0 after hgap
    rw [plainTail, show ':' :: after = blanks 0 ++ ':' :: after from rfl, hread]
    rfl

theorem plainStop_feed {limit n : Nat} {x : List Char} (hn : n < limit) (hx : AtToken x) :
    PlainStop limit ('\n' :: (blanks n ++ x)) true x := by
  constructor
  · rw [plainWord, show isGap '\n' = true by decide]
    rfl
  · intro fuel
    have hlines : Gap.readLines limit 0 ('\n' :: (blanks n ++ x)) = some (['\n'], n, x) := by
      have htab : (decide ('\n' = '\t') && decide (0 < limit)) = false := rfl
      rw [Gap.readLines, htab, if_neg Bool.false_ne_true, show isBlank '\n' = false by decide,
        if_neg Bool.false_ne_true, if_pos isBreak_feed, readLines_blanks, Nat.zero_add]
      · cases x with
        | nil => rfl
        | cons c x =>
          rw [readLines_stop _ _ _ (hx c rfl).1]
          rfl
      · nofun
    rw [plainTail, Gap.read, show isBlank '\n' = false by decide, if_neg Bool.false_ne_true,
      if_pos isBreak_feed, hlines]
    show (if plainEnds false limit ⟨[], ['\n'], n⟩ x then some (PlainText.mk [] true x) else _) = _
    have hends : plainEnds false limit ⟨[], ['\n'], n⟩ x = true := by
      rw [plainEnds, Gap.isBroken]
      simp [hn]
    rw [if_pos hends]

/-! ## runs -/

/-- A string, or the rest of one, in which a plain scalar does not end. -/
structure PlainRun (cs : List Char) : Prop where
  shown : ∀ c ∈ cs, isShown c = true ∧ isBreak c = false
  colon : hasColonEnd cs = false
  comment : anyPair (fun a b => isGap a && b = '#') cs = false
  last : cs.getLast? ≠ some ' '

theorem PlainRun.right (as : List Char) {bs : List Char} (h : PlainRun (as ++ bs)) :
    PlainRun bs where
  shown c hc := h.shown c (List.mem_append_right as hc)
  colon := hasColonEnd_append_right as h.colon
  comment := anyPair_append_right as h.comment
  last := getLast?_append_right as ' ' h.last

theorem PlainRun.not_gap {c : Char} {cs : List Char} (h : PlainRun (c :: cs)) (hc : c ≠ ' ') :
    isGap c = false :=
  not_gap_of_shown (h.shown c List.mem_cons_self).1 (h.shown c List.mem_cons_self).2 hc

/-- What a string that can stand plain is made of. -/
theorem plainRun_of_safe {cs : List Char} (h : isPlainSafe cs = true) :
    PlainRun cs ∧ cs.head? ≠ some ' ' ∧ startsLikeMark cs = false := by
  simp only [isPlainSafe, Bool.and_eq_true, List.all_eq_true, Bool.not_eq_true', List.any_eq_false,
    bne_iff_ne] at h
  obtain ⟨⟨⟨⟨⟨⟨hshown, hbreak⟩, hhead⟩, hlast⟩, hmark⟩, hcolon⟩, hcomment⟩ := h
  refine ⟨⟨fun c hc => ⟨hshown c hc, ?_⟩, hcolon, hcomment, hlast⟩, hhead, hmark⟩
  exact Bool.eq_false_iff.mpr (hbreak c hc)

section
variable {limit : Nat} {tail rest : List Char} {crosses : Bool}
  (stop : PlainStop limit tail crosses rest)
include stop

/-- A word goes up to the next blank. -/
theorem plainWord_run {w r : List Char} (h : PlainRun (w ++ r)) (hw : ∀ c ∈ w, c ≠ ' ')
    (hr : ∀ c, r.head? = some c → c = ' ') :
    plainWord false (w ++ r ++ tail) = some (w, r ++ tail) := by
  induction w with
  | nil =>
    cases r with
    | nil => exact stop.word
    | cons c r =>
      rw [List.nil_append, List.cons_append, plainWord, hr c rfl, show isGap ' ' = true by decide]
      rfl
  | cons c w ih =>
    obtain ⟨hc, hw⟩ := List.forall_mem_cons.mp hw
    have hcolon : (decide (c = ':') && atGap (w ++ r ++ tail)) = false := by
      by_cases hd : c = ':'
      · have hgap := (Bool.or_eq_false_iff.mp h.colon).1
        rw [decide_eq_true hd, Bool.true_and] at hgap ⊢
        change atGap (w ++ r) = false at hgap
        cases hwr : w ++ r with
        | nil =>
          rw [hwr] at hgap
          cases hgap
        | cons d ds =>
          rw [hwr] at hgap
          exact hgap
      · rw [decide_eq_false hd, Bool.false_and]
    rw [List.cons_append, List.cons_append, plainWord, h.not_gap hc, if_neg Bool.false_ne_true,
      Bool.false_and, Bool.false_and, if_neg Bool.false_ne_true, hcolon, Bool.false_and,
      Bool.false_or, if_neg Bool.false_ne_true, ih (h.right [c]) hw]
    rfl

/-- The further words of a string, from a blank on or at its end. -/
theorem plainTail_run {cs : List Char} (h : PlainRun cs) (hhead : ∀ c, cs.head? = some c → c = ' ')
    {fuel : Nat} (hfuel : cs.length < fuel) :
    plainTail false limit fuel (cs ++ tail) = some ⟨cs, crosses, rest⟩ := by
  induction hlen : cs.length using Nat.strongRecOn generalizing cs fuel with
  | _ n ih =>
    obtain ⟨fuel, rfl⟩ : ∃ f, fuel = f + 1 := ⟨fuel - 1, by omega⟩
    by_cases hnil : cs = []
    · subst hnil
      exact stop.stops fuel
    obtain ⟨c, ds, rfl⟩ := List.exists_cons_of_ne_nil hnil
    obtain rfl : c = ' ' := hhead c rfl
    obtain ⟨k, r, rfl, hr⟩ := exists_blanks ds
    have hblanks : ' ' :: (blanks k ++ r) = blanks (k + 1) ++ r := rfl
    rw [hblanks] at h hfuel hlen ⊢
    have hrun : PlainRun r := PlainRun.right _ h
    cases r with
    | nil =>
      have hlast : (blanks (k + 1) ++ []).getLast? = some ' ' := by
        rw [List.append_nil, blanks, List.replicate_succ', List.getLast?_concat]
      exact absurd hlast h.last
    | cons c r =>
      have hc : c ≠ ' ' := fun e => hr (congrArg some e)
      have hgap := hrun.not_gap hc
      have hcomment : c ≠ '#' := by
        have hpair := anyPair_append_right (blanks k) (blanks_succ_append k _ ▸ h.comment)
        have hfirst := (Bool.or_eq_false_iff.mp hpair).1
        rintro rfl
        exact absurd hfirst (by decide)
      have hread := read_blanks limit (k + 1) (r ++ tail) hgap
      have hends : plainEnds false limit ⟨blanks (k + 1), [], 0⟩ (c :: (r ++ tail)) = false := by
        rw [plainEnds, Gap.isBroken]
        simp [hcomment]
      -- the rest of the string behind this word is shorter, and a blank is at its head
      obtain ⟨w, v, rfl, hw, hv⟩ := exists_word r
      have hword : plainWord false (c :: (w ++ v ++ tail)) = some (c :: w, v ++ tail) :=
        plainWord_run stop (w := c :: w) hrun (List.forall_mem_cons.mpr ⟨hc, hw⟩) hv
      simp only [List.length_append, List.length_cons, blanks, List.length_replicate] at hfuel hlen
      have htail := ih v.length (by omega) (hrun.right (c :: w)) hv (show v.length < fuel by omega) rfl
      rw [List.append_assoc, List.cons_append, plainTail, hread]
      show (if plainEnds false limit ⟨blanks (k + 1), [], 0⟩ (c :: (w ++ v ++ tail)) then _ else _) = _
      rw [if_neg (by rw [hends]; exact Bool.false_ne_true), hword]
      show ((plainTail false limit fuel (v ++ tail)).bind fun t =>
        some { t with text := blanks (k + 1) ++ (c :: w) ++ t.text }) = _
      rw [htail]
      show some (PlainText.mk _ crosses rest) = _
      rw [List.append_assoc, List.cons_append]

/-- **A string that can stand plain reads back**, up to what stands behind it. -/
theorem readPlain_of_safe {cs : List Char} (h : isPlainSafe cs = true) {fuel : Nat}
    (hfuel : cs.length < fuel) :
    readPlain false limit fuel (cs ++ tail) = some ⟨cs, crosses, rest⟩ := by
  obtain ⟨hrun, -, -⟩ := plainRun_of_safe h
  obtain ⟨w, r, rfl, hw, hr⟩ := exists_word cs
  rw [List.length_append] at hfuel
  have htail := plainTail_run stop (hrun.right w) hr (show r.length < fuel by omega)
  rw [readPlain, plainWord_run stop hrun hw hr]
  show ((plainTail false limit fuel (r ++ tail)).bind fun t =>
    some { t with text := w ++ t.text }) = _
  rw [htail]
  rfl

end

end AccessFilter.Yaml
