import AccessFilter.Proofs.Yaml.Scalar.Plain
import AccessFilter.Yaml.Scalar.Block

/-!
# Literal blocks read back

A literal block keeps its lines, so what has to be shown is that the indentation is told apart from
the blanks a line starts with, and that the line breaks at the end are kept as the header says. The
block ends where the next line is indented less.

* `Chomps`              what a string kept under a chomping mark ends with;
* `read_literalMarks`   the header that is written for a string;
* `readLead_line`       empty lines and the indentation of the next one;
* `blockEndLine`        what stands behind the characters of a block;
* `blockLines_written`  the lines from one that is not empty;
* `readBlock_written`   a literal block reads back.
-/

namespace AccessFilter.Yaml

/-! ## what a block holds -/

theorem isBreak_shown {c : Char} (hs : isShown c = true) (hb : isBreak c = true) :
    c ≠ '\r' ∧ readBreak c = c := by
  simp only [isBreak, Bool.or_eq_true, decide_eq_true_eq] at hb
  rcases hb with (((rfl | rfl) | rfl) | rfl) | rfl
  · exact by decide
  · exact absurd hs (by decide)
  · exact absurd hs (by decide)
  · exact by decide
  · exact by decide

theorem ne_tab_of_shown {c : Char} (hs : isShown c = true) : c ≠ '\t' := by
  rintro rfl
  exact absurd hs (by decide)

/-- What a string ends with when it is kept under a chomping mark: no line break, a single one, or
any number of them. -/
def Chomps (chomping : Chomping) (cs : List Char) : Prop :=
  match chomping with
  | .strip => ∀ b, cs.getLast? = some b → isBreak b = false
  | .clip => ∃ as a b, cs = as ++ [a, b] ∧ isBreak a = false ∧ isBreak b = true
  | .keep => ∃ b, cs.getLast? = some b ∧ isBreak b = true

def chompingOf (cs : List Char) : Chomping :=
  match cs.reverse with
  | [] => .strip
  | [c] => if isBreak c then .keep else .strip
  | c :: d :: _ => if !isBreak c then .strip else if isBreak d then .keep else .clip

theorem chomps_chompingOf (cs : List Char) : Chomps (chompingOf cs) cs := by
  rcases List.eq_nil_or_concat cs with rfl | ⟨as, c, rfl⟩
  · exact nofun
  · rw [List.concat_eq_append]
    have hlast : (as ++ [c]).getLast? = some c := List.getLast?_concat
    have hstrip : isBreak c = false → Chomps .strip (as ++ [c]) := by
      intro hc b hb
      rw [hlast] at hb
      exact Option.some.inj hb ▸ hc
    have hkeep : isBreak c = true → Chomps .keep (as ++ [c]) := fun hc => ⟨c, hlast, hc⟩
    rw [chompingOf, List.reverse_append]
    cases has : as.reverse with
    | nil =>
      show Chomps (if isBreak c then .keep else .strip) _
      cases hc : isBreak c with
      | true => exact hkeep hc
      | false => exact hstrip hc
    | cons d ds =>
      show Chomps (if !isBreak c then .strip else if isBreak d then .keep else .clip) _
      cases hc : isBreak c with
      | false => exact hstrip hc
      | true =>
        cases hd : isBreak d with
        | true => exact hkeep hc
        | false =>
          refine ⟨ds.reverse, d, c, ?_, hd, hc⟩
          rw [← as.reverse_reverse, has, List.reverse_cons, List.append_assoc]
          rfl

/-- A string that a line which is not empty is a part of ends as the rest from that line does. -/
theorem Chomps.right {chomping : Chomping} (as : List Char) {cs : List Char}
    (h : Chomps chomping (as ++ cs)) (hne : cs ≠ [])
    (hhead : ∀ c, cs.head? = some c → isBreak c = false) : Chomps chomping cs := by
  obtain ⟨bs, z, rfl⟩ : ∃ bs z, cs = bs ++ [z] :=
    ⟨_, _, (List.dropLast_concat_getLast hne).symm⟩
  have hlast : (as ++ (bs ++ [z])).getLast? = (bs ++ [z]).getLast? := by
    rw [← List.append_assoc, List.getLast?_concat, List.getLast?_concat]
  cases chomping with
  | strip => exact fun b hb => h b (hlast.trans hb)
  | keep =>
    obtain ⟨b, hb, hbreak⟩ := h
    exact ⟨b, hlast.symm.trans hb, hbreak⟩
  | clip =>
    obtain ⟨ds, a, b, hsplit, ha, hb⟩ := h
    -- the last two characters both belong to the rest, whose first is no line break
    have hz : as ++ bs = ds ++ [a] ∧ z = b := by
      have h' : (as ++ bs) ++ [z] = (ds ++ [a]) ++ [b] := by simpa using hsplit
      exact ⟨List.append_inj_left' h' rfl, List.cons.inj (List.append_inj_right' h' rfl) |>.1⟩
    obtain ⟨hbs, rfl⟩ := hz
    have hbs_ne : bs ≠ [] := by
      rintro rfl
      have := hhead z rfl
      rw [hb] at this
      cases this
    obtain ⟨es, y, rfl⟩ : ∃ es y, bs = es ++ [y] :=
      ⟨_, _, (List.dropLast_concat_getLast hbs_ne).symm⟩
    have hy : y = a := by
      rw [← List.append_assoc] at hbs
      exact List.cons.inj (List.append_inj_right' hbs rfl) |>.1
    exact ⟨es, y, z, by simp, hy ▸ ha, hb⟩

/-! ## the header -/

/-- Whether the first line does not show the indentation. -/
def givesIndent (cs : List Char) : Bool := cs.head?.any fun c => c = ' ' || isBreak c

def Chomping.mark : Chomping → List Char
  | .strip => ['-']
  | .clip => []
  | .keep => ['+']

theorem literalMarks_eq (cs : List Char) :
    literalMarks cs = (if givesIndent cs then ['2'] else []) ++ (chompingOf cs).mark := by
  rw [literalMarks, chompingOf]
  congr 1
  rcases cs.reverse with _ | ⟨c, _ | ⟨d, ds⟩⟩
  · rfl
  · cases h : isBreak c <;> simp [h, Chomping.mark]
  · cases h : isBreak c <;> cases h' : isBreak d <;> simp [h, h', Chomping.mark]

theorem read_literalMarks (cs rest : List Char) :
    BlockHeader.read (literalMarks cs ++ '\n' :: rest)
      = some (⟨chompingOf cs, if givesIndent cs then some 2 else none⟩, rest) := by
  rw [literalMarks_eq]
  cases givesIndent cs <;> cases chompingOf cs <;> rfl

/-! ## empty lines and indentation -/

section
variable {indent : Option Nat} {rest : List Char}

theorem readLead_blanks (column widest n : Nat) (h : ∀ m, indent = some m → column + n ≤ m) :
    readLead indent column widest (blanks n ++ rest) = readLead indent (column + n) widest rest := by
  induction n generalizing column with
  | zero => rfl
  | succ n ih =>
    have hinside : indent.all (column < ·) = true := by
      cases indent with
      | none => rfl
      | some m =>
        have := h m rfl
        exact decide_eq_true (by omega)
    show readLead indent column widest (' ' :: (blanks n ++ rest)) = _
    have hblank : (decide (' ' = ' ') && indent.all (column < ·)) = true := by
      rw [hinside]
      rfl
    rw [readLead, if_pos hblank, ih (column + 1) fun m hm => by have := h m hm; omega,
      Nat.add_assoc, Nat.add_comm 1]
    nofun

theorem readLead_stop (column widest : Nat) {c : Char} (hb : isBreak c = false) (ht : c ≠ '\t')
    (hc : c ≠ ' ' ∨ indent = some column) :
    readLead indent column widest (c :: rest)
      = some ⟨[], column, max widest column, c :: rest⟩ := by
  have hblank : (decide (c = ' ') && indent.all (column < ·)) = false := by
    rcases hc with hc | rfl
    · rw [decide_eq_false hc, Bool.false_and]
    · simp
  have hr : c ≠ '\r' := ne_of_isBreak_false hb (by decide)
  rw [readLead, hblank, if_neg Bool.false_ne_true, decide_eq_false ht, Bool.false_and,
    if_neg Bool.false_ne_true, hb, if_neg Bool.false_ne_true]
  exact fun _ h _ => hr h

theorem readLead_breaks {bs : List Char} (hbs : ∀ b ∈ bs, isShown b = true ∧ isBreak b = true)
    {column : Nat} {body : List Char}
    (h : ∀ widest, ∃ w, readLead indent 0 widest rest = some ⟨[], column, w, body⟩) (widest : Nat) :
    ∃ w, readLead indent 0 widest (bs ++ rest) = some ⟨bs, column, w, body⟩ := by
  induction bs generalizing widest with
  | nil => exact h widest
  | cons b bs ih =>
    obtain ⟨⟨hshown, hbreak⟩, hbs⟩ := List.forall_mem_cons.mp hbs
    obtain ⟨hr, hread⟩ := isBreak_shown hshown hbreak
    obtain ⟨w, hw⟩ := ih hbs (max widest 0)
    have hblank : (decide (b = ' ') && indent.all (0 < ·)) = false := by
      rw [decide_eq_false, Bool.false_and]
      rintro rfl
      cases hbreak
    have htab : (decide (b = '\t') && indent.all (0 < ·)) = false := by
      rw [decide_eq_false (ne_tab_of_shown hshown), Bool.false_and]
    refine ⟨w, ?_⟩
    rw [List.cons_append, readLead, hblank, if_neg Bool.false_ne_true, htab,
      if_neg Bool.false_ne_true, if_pos hbreak, hw, hread]
    · rfl
    · exact fun _ h _ => hr h

/-- What stands behind a block: blanks that indent the next line less, or the end. -/
theorem readLead_tail {indent column : Nat} {x : List Char} (hcolumn : column < indent)
    (hx : AtToken x) (widest : Nat) :
    ∃ w, readLead (some indent) 0 widest (blanks column ++ x) = some ⟨[], column, w, x⟩ := by
  rw [readLead_blanks 0 widest column fun m hm => by have := Option.some.inj hm; omega,
    Nat.zero_add]
  cases x with
  | nil => exact ⟨_, rfl⟩
  | cons c x =>
    obtain ⟨hblank, htab, hbreak⟩ := (isGap_eq_false_iff c).mp (hx c rfl).1
    exact ⟨_, readLead_stop _ _ hbreak htab (.inl hblank)⟩

end

/-! ## lines -/

section
variable {indent : Nat} {cs : List Char}

theorem indentedLines_breaks {bs : List Char} (h : ∀ b ∈ bs, isBreak b = true) :
    indentedLines indent true (bs ++ cs) = bs ++ indentedLines indent true cs := by
  induction bs with
  | nil => rfl
  | cons b bs ih =>
    obtain ⟨hb, hbs⟩ := List.forall_mem_cons.mp h
    rw [List.cons_append, indentedLines, if_pos hb, ih hbs]
    rfl

theorem indentedLines_lineStart (h : ∀ c, cs.head? = some c → isBreak c = false) (hne : cs ≠ []) :
    indentedLines indent true cs = blanks indent ++ indentedLines indent false cs := by
  cases cs with
  | nil => exact absurd rfl hne
  | cons c cs =>
    rw [indentedLines, h c rfl, indentedLines, h c rfl]
    rfl

theorem indentedLines_line {line : List Char} (h : ∀ c ∈ line, isBreak c = false) :
    indentedLines indent false (line ++ cs) = line ++ indentedLines indent false cs := by
  induction line with
  | nil => rfl
  | cons c line ih =>
    obtain ⟨hc, hline⟩ := List.forall_mem_cons.mp h
    rw [List.cons_append, indentedLines, hc, if_neg Bool.false_ne_true, if_neg Bool.false_ne_true,
      ih hline]
    rfl

theorem readLead_end {bs x : List Char} (hshown : ∀ b ∈ bs, isShown b = true)
    (hbreak : ∀ b ∈ bs, isBreak b = true) {column : Nat} (hcolumn : column < indent)
    (hx : AtToken x) (widest : Nat) :
    ∃ w, readLead (some indent) 0 widest (indentedLines indent true bs ++ (blanks column ++ x))
      = some ⟨bs, column, w, x⟩ := by
  have hlines : indentedLines indent true (bs ++ []) = bs ++ indentedLines indent true [] :=
    indentedLines_breaks hbreak
  rw [List.append_nil, show indentedLines indent true [] = [] from rfl, List.append_nil] at hlines
  rw [hlines]
  exact readLead_breaks (fun b hb => ⟨hshown b hb, hbreak b hb⟩) (readLead_tail hcolumn hx) widest

/-- Empty lines and the indentation of the line behind them. -/
theorem readLead_line {bs r tail : List Char} (hshown : ∀ b ∈ bs ++ r, isShown b = true)
    (hbreak : ∀ b ∈ bs, isBreak b = true) (hhead : ∀ c, r.head? = some c → isBreak c = false)
    (hne : r ≠ []) (widest : Nat) :
    ∃ w, readLead (some indent) 0 widest (indentedLines indent true (bs ++ r) ++ tail)
      = some ⟨bs, indent, w, indentedLines indent false r ++ tail⟩ := by
  rw [indentedLines_breaks hbreak, indentedLines_lineStart hhead hne, List.append_assoc,
    List.append_assoc]
  obtain ⟨c, r, rfl⟩ := List.exists_cons_of_ne_nil hne
  have hc : isBreak c = false := hhead c rfl
  have htab : c ≠ '\t' := ne_tab_of_shown (hshown c (by simp))
  have hline : ∀ widest, ∃ w, readLead (some indent) 0 widest
      (blanks indent ++ (indentedLines indent false (c :: r) ++ tail))
      = some ⟨[], indent, w, indentedLines indent false (c :: r) ++ tail⟩ := by
    intro widest
    rw [readLead_blanks 0 widest indent fun m hm => by have := Option.some.inj hm; omega,
      Nat.zero_add, indentedLines, hc]
    exact ⟨_, readLead_stop _ _ hc htab (.inr rfl)⟩
  exact readLead_breaks (fun b hb => ⟨hshown b (List.mem_append_left _ hb), hbreak b hb⟩) hline widest

/-- What stands behind the characters of a block: a line feed if they do not end with one. -/
def blockEndLine (cs : List Char) : List Char :=
  if cs.getLast?.any isBreak then [] else ['\n']

theorem blockEndLine_append (as : List Char) (hne : cs ≠ []) :
    blockEndLine (as ++ cs) = blockEndLine cs := by
  rw [blockEndLine, blockEndLine, List.getLast?_append, List.getLast?_eq_some_getLast hne]
  rfl

theorem blockEndLine_breaks (hne : cs ≠ []) (h : ∀ c ∈ cs, isBreak c = true) :
    blockEndLine cs = [] := by
  rw [blockEndLine, List.getLast?_eq_some_getLast hne]
  exact if_pos (h _ (List.getLast_mem hne))

theorem blockEndLine_line (h : ∀ c ∈ cs, isBreak c = false) : blockEndLine cs = ['\n'] := by
  rw [blockEndLine, if_neg]
  intro hany
  obtain ⟨c, hc, hb⟩ := (Option.any_eq_true _ _).mp hany
  rw [h c (List.mem_of_getLast? hc)] at hb
  cases hb

theorem blockLines_line {chomping : Chomping} {bs line after lineEnd text rest : List Char}
    {b : Char} {w fuel : Nat} {blankBefore : Bool} {next : BlockLead}
    (hline : ∀ c ∈ line, isBreak c = false) (hb : isBreak b = true) (hr : b ≠ '\r')
    (hread : readBreak b = b) (hnext : readLead (some indent) 0 0 after = some next)
    (hrest : ∀ blank, readLines true chomping indent fuel blank [b] next = some (text, rest)) :
    readLines true chomping indent (fuel + 1) blankBefore lineEnd
      ⟨bs, indent, w, line ++ b :: after⟩ = some (lineEnd ++ bs ++ line ++ text, rest) := by
  have htake : (line ++ b :: after).takeWhile (fun c => !isBreak c) = line := by
    rw [List.takeWhile_append_of_pos fun c hc => by simp [hline c hc],
      List.takeWhile_cons_of_neg (by simp [hb]), List.append_nil]
  have hdrop : (line ++ b :: after).dropWhile (fun c => !isBreak c) = b :: after := by
    rw [List.dropWhile_append_of_pos fun c hc => by simp [hline c hc],
      List.dropWhile_cons_of_neg (by simp [hb])]
  have hpass : passBreak (b :: after) = after := by
    rw [passBreak]
    exact fun _ h _ => hr h
  have hcond : (indent == indent && !(line ++ b :: after).isEmpty) = true := by
    rw [beq_self_eq_true, Bool.true_and, List.isEmpty_eq_false_iff.mpr (by simp)]
    rfl
  rw [readLines.eq_def]
  simp only [htake, hdrop, hpass, hnext]
  rw [if_pos hcond]
  show (readLines true chomping indent fuel _ [readBreak b] next).bind
    (fun r => some (lineEnd ++ bs ++ line ++ r.1, r.2)) = _
  rw [hread, hrest]
  rfl

/-- What is left of the line breaks behind the last line. -/
def Chomping.tail (chomping : Chomping) (lineEnd breaks : List Char) : List Char :=
  match chomping with
  | .strip => []
  | .clip => lineEnd
  | .keep => lineEnd ++ breaks

theorem blockLines_end {chomping : Chomping} {bs lineEnd x : List Char} {w fuel column : Nat}
    (hcolumn : column < indent) (blankBefore : Bool) :
    readLines true chomping indent (fuel + 1) blankBefore lineEnd ⟨bs, column, w, x⟩
      = some (chomping.tail lineEnd bs, x) := by
  have hcond : (column == indent && !x.isEmpty) = false := by
    rw [beq_false_of_ne (Nat.ne_of_lt hcolumn), Bool.false_and]
  rw [readLines.eq_def]
  dsimp only
  rw [if_neg (by rw [hcond]; exact Bool.false_ne_true)]
  cases chomping <;> rfl

theorem mem_of_getLast?_append_cons {as bs : List Char} {b c : Char}
    (h : (as ++ b :: bs).getLast? = some c) : c ∈ b :: bs := by
  have hlast : (b :: bs).getLast? = some c := by
    rw [List.getLast?_append, List.getLast?_cons] at h
    rw [List.getLast?_cons]
    exact h
  exact List.mem_of_getLast? hlast

/-- Line breaks at the end are kept as they are. -/
theorem Chomps.tail_eq {chomping : Chomping} {line bs : List Char} {b : Char}
    (hbs : ∀ c ∈ b :: bs, isBreak c = true) (h : Chomps chomping (line ++ b :: bs)) :
    chomping.tail [b] bs = b :: bs := by
  cases chomping with
  | keep => rfl
  | strip =>
    obtain ⟨c, hc⟩ : ∃ c, (line ++ b :: bs).getLast? = some c :=
      ⟨_, List.getLast?_eq_some_getLast (by simp)⟩
    have hnot := h c hc
    rw [hbs c (mem_of_getLast?_append_cons hc)] at hnot
    cases hnot
  | clip =>
    obtain ⟨as, a, z, hsplit, ha, -⟩ := h
    rcases List.eq_nil_or_concat bs with rfl | ⟨bs, y, rfl⟩
    · rfl
    · -- the last but one would be a line break too
      rw [List.concat_eq_append] at hsplit hbs
      have hsplit' : (line ++ b :: bs) ++ [y] = (as ++ [a]) ++ [z] := by simpa using hsplit
      have hlast : (line ++ b :: bs).getLast? = some a := by
        rw [List.append_inj_left' hsplit' rfl, List.getLast?_concat]
      have hmem := mem_of_getLast?_append_cons hlast
      rw [hbs a (by
        rw [← List.cons_append]
        exact List.mem_append_left _ hmem)] at ha
      cases ha

/-- A string that does not end with a line break has none that could be dropped. -/
theorem Chomps.tail_nil {chomping : Chomping} {cs : List Char} (hne : cs ≠ [])
    (hcs : ∀ c ∈ cs, isBreak c = false) (h : Chomps chomping cs) (lineEnd bs : List Char) :
    chomping.tail lineEnd bs = [] := by
  cases chomping with
  | strip => rfl
  | keep =>
    obtain ⟨b, hb, hbreak⟩ := h
    rw [hcs b (List.mem_of_getLast? hb)] at hbreak
    cases hbreak
  | clip =>
    obtain ⟨as, a, b, rfl, -, hbreak⟩ := h
    rw [hcs b (by simp)] at hbreak
    cases hbreak

section
variable {column : Nat} {x : List Char} (hcolumn : column < indent) (hx : AtToken x)
  {chomping : Chomping}
include hcolumn hx

/-- The last line, with no line break behind it. -/
theorem blockLines_last {line : List Char} (hline : ∀ c ∈ line, isBreak c = false) (hne : line ≠ [])
    (hchomps : Chomps chomping line) (blankBefore : Bool) (lineEnd bs : List Char) (w fuel : Nat) :
    readLines true chomping indent (fuel + 2) blankBefore lineEnd
      ⟨bs, indent, w, indentedLines indent false line ++ (blockEndLine line ++ (blanks column ++ x))⟩
        = some (lineEnd ++ bs ++ line, x) := by
  have hlines : indentedLines indent false (line ++ []) = line ++ indentedLines indent false [] :=
    indentedLines_line hline
  rw [List.append_nil, show indentedLines indent false [] = [] from rfl, List.append_nil] at hlines
  obtain ⟨w', hnext⟩ := readLead_tail hcolumn hx 0
  rw [hlines, blockEndLine_line hline, List.singleton_append,
    blockLines_line hline isBreak_feed (by decide) rfl hnext fun blank => blockLines_end hcolumn blank,
    hchomps.tail_nil hne hline, List.append_nil]

/-- The last line, with only line breaks behind it. -/
theorem blockLines_breaks {line breaks : List Char} {b : Char}
    (hshown : ∀ c ∈ b :: breaks, isShown c = true) (hline : ∀ c ∈ line, isBreak c = false)
    (hbreaks : ∀ c ∈ b :: breaks, isBreak c = true) (hchomps : Chomps chomping (line ++ b :: breaks))
    (blankBefore : Bool) (lineEnd bs : List Char) (w fuel : Nat) :
    readLines true chomping indent (fuel + 2) blankBefore lineEnd
      ⟨bs, indent, w, indentedLines indent false (line ++ b :: breaks) ++
        (blockEndLine (line ++ b :: breaks) ++ (blanks column ++ x))⟩
        = some (lineEnd ++ bs ++ (line ++ b :: breaks), x) := by
  obtain ⟨hb, hrest⟩ := List.forall_mem_cons.mp hbreaks
  obtain ⟨hbshown, hrestshown⟩ := List.forall_mem_cons.mp hshown
  obtain ⟨hreturn, hread⟩ := isBreak_shown hbshown hb
  obtain ⟨w', hnext⟩ := readLead_end hrestshown hrest hcolumn hx 0
  rw [indentedLines_line hline, indentedLines, if_pos hb,
    blockEndLine_append _ (List.cons_ne_nil b breaks),
    blockEndLine_breaks (List.cons_ne_nil b breaks) hbreaks, List.nil_append, List.append_assoc,
    List.cons_append,
    blockLines_line hline hb hreturn hread hnext fun blank => blockLines_end hcolumn blank,
    hchomps.tail_eq hbreaks, List.append_assoc]

/-- The lines from one that is not empty, when empty lines have been passed. -/
theorem blockLines_written (hshown : ∀ c ∈ cs, isShown c = true)
    (hhead : ∀ c, cs.head? = some c → isBreak c = false) (hne : cs ≠ [])
    (hchomps : Chomps chomping cs) (blankBefore : Bool) (lineEnd bs : List Char) (w : Nat)
    {fuel : Nat} (hfuel : cs.length < fuel) :
    readLines true chomping indent fuel blankBefore lineEnd
      ⟨bs, indent, w, indentedLines indent false cs ++ (blockEndLine cs ++ (blanks column ++ x))⟩
        = some (lineEnd ++ bs ++ cs, x) := by
  induction hlen : cs.length using Nat.strongRecOn
    generalizing cs fuel blankBefore lineEnd bs w with
  | _ m ih =>
    have hpos := List.length_pos_iff.mpr hne
    obtain ⟨fuel, rfl⟩ : ∃ f, fuel = f + 2 := ⟨fuel - 2, by omega⟩
    obtain ⟨line, r, rfl, hline, hr⟩ := exists_span (!isBreak ·) cs
    have hline : ∀ c ∈ line, isBreak c = false := fun c hc => (Bool.not_eq_true' _).mp (hline c hc)
    cases r with
    | nil =>
      rw [List.append_nil] at hne hchomps ⊢
      exact blockLines_last hcolumn hx hline hne hchomps blankBefore lineEnd bs w fuel
    | cons b r =>
      have hb : isBreak b = true := (Bool.not_eq_false' _).mp (hr b rfl)
      obtain ⟨breaks, rest, rfl, hbreaks, hrest⟩ := exists_span isBreak r
      have hshown' := fun c hc => hshown c (List.mem_append_right line hc)
      by_cases hnil : rest = []
      · subst hnil
        rw [List.append_nil] at hchomps hshown' ⊢
        exact blockLines_breaks hcolumn hx hshown' hline (List.forall_mem_cons.mpr ⟨hb, hbreaks⟩)
          hchomps blankBefore lineEnd bs w fuel
      · -- the lines from the next one that is not empty are fewer
        obtain ⟨hbshown, hrestshown⟩ := List.forall_mem_cons.mp hshown'
        obtain ⟨hreturn, hread⟩ := isBreak_shown hbshown hb
        obtain ⟨w', hnext⟩ := readLead_line hrestshown hbreaks hrest hnil 0
        rw [List.length_append, List.length_cons, List.length_append] at hfuel hlen
        have hsplit : line ++ b :: (breaks ++ rest) = (line ++ b :: breaks) ++ rest := by
          rw [List.append_assoc, List.cons_append]
        have hnextlines := fun blank => ih rest.length (by omega)
          (fun c hc => hrestshown c (List.mem_append_right _ hc)) hrest hnil
          (Chomps.right _ (hsplit ▸ hchomps) hnil hrest) blank [b] breaks w'
          (show rest.length < fuel + 1 by omega) rfl
        have hend : blockEndLine (line ++ b :: (breaks ++ rest)) = blockEndLine rest := by
          rw [hsplit, blockEndLine_append _ hnil]
        rw [hend, indentedLines_line hline, indentedLines, if_pos hb, List.append_assoc,
          List.cons_append, blockLines_line hline hb hreturn hread hnext hnextlines]
        simp

end

end

/-! ## whole blocks -/

/-- A block behind a header, when the indentation of its lines is known. -/
theorem readBlock_eq {parent fuel : Nat} {cs body : List Char} {lead : BlockLead}
    {result : List Char × List Char}
    (hlead : readLead (if givesIndent cs then some (parent + 2) else none) 0 0 body = some lead)
    (hwidest : givesIndent cs = false → lead.widest = parent + 2)
    (hlines : readLines true (chompingOf cs) (parent + 2) fuel false [] lead = some result) :
    readBlock true (some parent) fuel (literalMarks cs ++ '\n' :: body) = some result := by
  rw [readBlock, read_literalMarks]
  cases hgives : givesIndent cs with
  | true =>
    rw [hgives] at hlead
    show (readLead (some (parent + 2)) 0 0 body).bind (fun lead =>
      readLines true (chompingOf cs) (parent + 2) fuel false [] lead) = _
    rw [show readLead (some (parent + 2)) 0 0 body = some lead from hlead]
    exact hlines
  | false =>
    rw [hgives] at hlead
    show (readLead none 0 0 body).bind (fun lead =>
      readLines true (chompingOf cs) (max lead.widest (parent + 1)) fuel false [] lead) = _
    rw [show readLead none 0 0 body = some lead from hlead]
    show readLines true (chompingOf cs) (max lead.widest (parent + 1)) fuel false [] lead = _
    rw [hwidest hgives, Nat.max_eq_left (Nat.le_succ _)]
    exact hlines

/-- A string of line breaks is kept as it is. -/
theorem tail_breaks {cs : List Char} (hne : cs ≠ []) (hcs : ∀ c ∈ cs, isBreak c = true) :
    (chompingOf cs).tail [] cs = cs := by
  have hchomps := chomps_chompingOf cs
  cases hc : chompingOf cs with
  | keep => rfl
  | strip =>
    rw [hc] at hchomps
    have hlast := hchomps _ (List.getLast?_eq_some_getLast hne)
    rw [hcs _ (List.getLast_mem hne)] at hlast
    cases hlast
  | clip =>
    rw [hc] at hchomps
    obtain ⟨as, a, b, rfl, ha, -⟩ := hchomps
    rw [hcs a (by simp)] at ha
    cases ha

section
variable {parent column : Nat} {x cs : List Char} (hcolumn : column < parent + 2) (hx : AtToken x)
  (hshown : ∀ c ∈ cs, isShown c = true) (hne : cs ≠ []) {fuel : Nat}
include hcolumn hx hshown hne

/-- A block of empty lines. -/
theorem readBlock_breaks (hbreaks : ∀ c ∈ cs, isBreak c = true) :
    readBlock true (some parent) (fuel + 1) (literalMarks cs ++ '\n' ::
      (indentedLines (parent + 2) true cs ++ (blockEndLine cs ++ (blanks column ++ x))))
        = some (cs, x) := by
  have hgives : givesIndent cs = true := by
    obtain ⟨c, cs, rfl⟩ := List.exists_cons_of_ne_nil hne
    show (decide (c = ' ') || isBreak c) = true
    rw [hbreaks c List.mem_cons_self, Bool.or_true]
  obtain ⟨w, hlead⟩ := readLead_end hshown hbreaks hcolumn hx 0
  rw [blockEndLine_breaks hne hbreaks, List.nil_append]
  refine readBlock_eq (by rw [if_pos hgives, hlead]) (fun h => ?_) ?_
  · rw [hgives] at h
    cases h
  · rw [blockLines_end hcolumn, tail_breaks hne hbreaks]

/-- **A literal block reads back.** -/
theorem readBlock_written (hfuel : cs.length < fuel) :
    readBlock true (some parent) fuel (literalMarks cs ++ '\n' ::
      (indentedLines (parent + 2) true cs ++ (blockEndLine cs ++ (blanks column ++ x))))
        = some (cs, x) := by
  obtain ⟨bs, r, hsplit, hbs, hr⟩ := exists_span isBreak cs
  by_cases hnil : r = []
  · rw [hnil, List.append_nil] at hsplit
    obtain ⟨fuel, rfl⟩ : ∃ f, fuel = f + 1 := ⟨fuel - 1, by omega⟩
    exact readBlock_breaks hcolumn hx hshown hne (hsplit ▸ hbs)
  have hchomps : Chomps (chompingOf cs) r := Chomps.right bs (hsplit ▸ chomps_chompingOf cs) hnil hr
  have hend : blockEndLine cs = blockEndLine r := hsplit ▸ blockEndLine_append bs hnil
  have hcount := congrArg List.length hsplit
  rw [List.length_append] at hcount
  have hlines := fun w => blockLines_written hcolumn hx
    (fun c hc => hshown c (hsplit ▸ List.mem_append_right bs hc)) hr hnil hchomps false [] bs w
    (show r.length < fuel by omega)
  rw [List.nil_append, ← hsplit, ← hend] at hlines
  cases hgives : givesIndent cs with
  | true =>
    obtain ⟨w, hlead⟩ := readLead_line (hsplit ▸ hshown) hbs hr hnil 0
    rw [← hsplit] at hlead
    refine readBlock_eq (by rw [if_pos hgives, hlead]) (fun h => ?_) (hlines w)
    rw [hgives] at h
    cases h
  | false =>
    -- the first line shows the indentation
    obtain ⟨c, ds, rfl⟩ := List.exists_cons_of_ne_nil hne
    obtain ⟨hblank, hb⟩ : decide (c = ' ') = false ∧ isBreak c = false :=
      Bool.or_eq_false_iff.mp hgives
    have hc : c ≠ ' ' := of_decide_eq_false hblank
    have hbsnil : bs = [] := by
      cases bs with
      | nil => rfl
      | cons b bs =>
        obtain ⟨rfl, -⟩ := List.cons.inj hsplit
        rw [hbs c List.mem_cons_self] at hb
        cases hb
    subst hbsnil
    obtain rfl : r = c :: ds := hsplit.symm
    refine readBlock_eq ?_ (fun _ => Nat.max_eq_right (Nat.zero_le _)) (hlines _)
    rw [hgives]
    show readLead none 0 0 _ = _
    rw [indentedLines_lineStart hr hne, List.append_assoc,
      readLead_blanks 0 0 (parent + 2) (fun m h => by cases h), Nat.zero_add, indentedLines, hb]
    exact readLead_stop _ _ hb (ne_tab_of_shown (hshown c List.mem_cons_self)) (.inl hc)

end

end AccessFilter.Yaml
