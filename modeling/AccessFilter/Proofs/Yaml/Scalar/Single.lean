import AccessFilter.Proofs.Yaml.Scalar.Quoted

/-!
# Strings between single quotes read back

Only the two line separators can stand between single quotes as they are. The line behind one is
indented, and the blanks that indent it do not count, so no blank of the string may stand next to a
separator.

* `SingleRun`            a string, or the rest of one, that can stand between single quotes;
* `singleLines`          what is written for it, character by character;
* `readSingle_written`   a string between single quotes reads back.
-/

namespace AccessFilter.Yaml

/-! ## what is written -/

/-- A string, or the rest of one, that can stand between single quotes. -/
structure SingleRun (cs : List Char) : Prop where
  shown : ∀ c ∈ cs, isShown c = true ∧ c ≠ '\n'
  blankBreak : hasBlankBreak cs = false
  breakBlank : hasBreakBlank cs = false

theorem SingleRun.right (as : List Char) {bs : List Char} (h : SingleRun (as ++ bs)) :
    SingleRun bs where
  shown c hc := h.shown c (List.mem_append_right as hc)
  blankBreak := anyPair_append_right as h.blankBreak
  breakBlank := anyPair_append_right as h.breakBlank

theorem singleRun_of_safe {cs : List Char} (h : isSingleSafe cs = true)
    (hfeed : cs.contains '\n' = false) : SingleRun cs := by
  simp only [isSingleSafe, Bool.and_eq_true, List.all_eq_true, Bool.not_eq_true'] at h
  obtain ⟨⟨hshown, hblank⟩, hbreak⟩ := h
  refine ⟨fun c hc => ⟨hshown c hc, ?_⟩, hblank, hbreak⟩
  rintro rfl
  rw [List.contains_iff_mem.mpr hc] at hfeed
  cases hfeed

/-- A gap of such a string is a blank or a line separator. -/
theorem SingleRun.gap_cases {cs : List Char} (h : SingleRun cs) {c : Char} (hc : c ∈ cs)
    (hgap : isGap c = true) : c = ' ' ∨ isBreak c = true ∧ c ≠ '\r' ∧ readBreak c = c := by
  obtain ⟨hshown, hfeed⟩ := h.shown c hc
  simp only [isGap, isBlank, isBreak, Bool.or_eq_true, decide_eq_true_eq] at hgap
  rcases hgap with (rfl | rfl) | (((rfl | rfl) | rfl) | rfl) | rfl
  · exact .inl rfl
  · exact absurd hshown (by decide)
  · exact absurd rfl hfeed
  · exact absurd hshown (by decide)
  · exact absurd hshown (by decide)
  · exact .inr (by decide)
  · exact .inr (by decide)

/-- What is written for the rest of a string, `lineStart` behind a line separator. -/
def singleLines (indent : Nat) (lineStart : Bool) : List Char → List Char
  | [] => if lineStart then blanks indent else []
  | c :: cs =>
    if isBreak c then c :: singleLines indent true cs
    else (if lineStart then blanks indent else []) ++
      ((if c = '\'' then ['\'', '\''] else [c]) ++ singleLines indent false cs)

theorem singleLines_eq (indent : Nat) (lineStart : Bool) (cs : List Char) :
    indentedLines indent lineStart (doubleQuotes cs) ++
      (if (cs.getLast?.map isBreak).getD lineStart then blanks indent else [])
        = singleLines indent lineStart cs := by
  induction cs generalizing lineStart with
  | nil => rfl
  | cons c cs ih =>
    have hlast : (((c :: cs).getLast?.map isBreak).getD lineStart)
        = (cs.getLast?.map isBreak).getD (isBreak c) := by
      rw [List.getLast?_cons]
      cases cs.getLast? <;> rfl
    rw [hlast, singleLines, doubleQuotes, List.flatMap_cons, ← doubleQuotes]
    by_cases hq : c = '\''
    · subst hq
      have hb : isBreak '\'' = false := by decide
      rw [if_pos rfl, hb, if_neg Bool.false_ne_true, ← ih]
      show indentedLines indent lineStart ('\'' :: '\'' :: doubleQuotes cs) ++ _ = _
      rw [indentedLines, hb, if_neg Bool.false_ne_true, indentedLines, hb,
        if_neg Bool.false_ne_true]
      simp
    · rw [if_neg hq]
      show indentedLines indent lineStart (c :: doubleQuotes cs) ++ _ = _
      rw [indentedLines]
      cases hb : isBreak c with
      | true =>
        rw [if_pos rfl, if_pos rfl, ← ih]
        rfl
      | false =>
        rw [if_neg Bool.false_ne_true, if_neg Bool.false_ne_true, ← ih]
        simp

theorem writtenSingle_eq (indent : Nat) (cs : List Char) :
    writtenSingle indent cs = '\'' :: singleLines indent false cs ++ ['\''] := by
  rw [writtenSingle, ← singleLines_eq]
  have hlast : cs.getLast?.any isBreak = (cs.getLast?.map isBreak).getD false := by
    cases cs.getLast? <;> rfl
  rw [hlast, List.cons_append]

section
variable {indent : Nat} {cs : List Char}

theorem singleLines_lineStart (h : ∀ c, cs.head? = some c → isBreak c = false) :
    singleLines indent true cs = blanks indent ++ singleLines indent false cs := by
  cases cs with
  | nil => exact (List.append_nil _).symm
  | cons c cs =>
    rw [singleLines, h c rfl, singleLines, h c rfl]
    rfl

theorem singleLines_blanks (k : Nat) :
    singleLines indent false (blanks k ++ cs) = blanks k ++ singleLines indent false cs := by
  induction k with
  | zero => rfl
  | succ k ih =>
    show singleLines indent false (' ' :: (blanks k ++ cs)) = _
    rw [singleLines, isBreak_blank, if_neg Bool.false_ne_true, ih]
    rfl

theorem singleLines_breaks (indent : Nat) (cs : List Char) {bs : List Char}
    (hb : ∀ c ∈ bs, isBreak c = true) (lineStart : Bool) (hne : bs ≠ []) :
    singleLines indent lineStart (bs ++ cs) = bs ++ singleLines indent true cs := by
  induction bs generalizing lineStart with
  | nil => exact absurd rfl hne
  | cons b bs ih =>
    obtain ⟨hc, hbs⟩ := List.forall_mem_cons.mp hb
    rw [List.cons_append, singleLines, if_pos hc]
    by_cases hnil : bs = []
    · rw [hnil]
      rfl
    · rw [ih hbs true hnil]
      rfl

/-! ## words and gaps -/

/-- What is written for a text that does not start with a gap does not start with one either. -/
theorem singleLines_head (h : ∀ c, cs.head? = some c → isGap c = false) (tail : List Char) :
    ∃ d ds, singleLines indent false cs ++ '\'' :: tail = d :: ds ∧ isGap d = false := by
  cases cs with
  | nil => exact ⟨'\'', tail, rfl, by decide⟩
  | cons c cs =>
    have hc := h c rfl
    rw [singleLines, isBreak_of_not_gap hc, if_neg Bool.false_ne_true, if_neg Bool.false_ne_true]
    by_cases hq : c = '\''
    · rw [if_pos hq]
      exact ⟨'\'', _, rfl, by decide⟩
    · rw [if_neg hq]
      exact ⟨c, _, rfl, hc⟩

theorem ne_quote_of_isGap {c : Char} (h : isGap c = true) : c ≠ '\'' := by
  rintro rfl
  cases h

/-- A character that is not doubled is written first. -/
theorem singleLines_gap (indent : Nat) (cs : List Char) {c : Char} (h : c ≠ '\'') :
    ∃ ds, singleLines indent false (c :: cs) = c :: ds := by
  rw [singleLines, if_neg h]
  cases isBreak c
  · exact ⟨_, rfl⟩
  · exact ⟨_, rfl⟩

theorem singleWord_stop {c : Char} {tail : List Char} (hc : c = '\'' ∨ isGap c = true)
    (htail : tail.head? ≠ some '\'' ∨ c ≠ '\'') : singleWord (c :: tail) = ⟨[], false, c :: tail⟩ := by
  have hstop : (decide (c = '\'') || isGap c) = true := by
    rw [Bool.or_eq_true, decide_eq_true_eq]
    exact hc
  rw [singleWord, if_pos hstop]
  rintro rest rfl rfl
  exact htail.elim (fun h => h rfl) fun h => h rfl

/-- A word goes up to the next gap or to the closing quote. -/
theorem singleWord_written (indent : Nat) {tail : List Char} (htail : tail.head? ≠ some '\'')
    {w r : List Char} (hw : ∀ c ∈ w, isGap c = false)
    (hr : ∀ c, r.head? = some c → isGap c = true) :
    singleWord (singleLines indent false (w ++ r) ++ '\'' :: tail)
      = ⟨w, false, singleLines indent false r ++ '\'' :: tail⟩ := by
  induction w with
  | nil =>
    cases r with
    | nil => exact singleWord_stop (.inl rfl) (.inl htail)
    | cons c r =>
      have hgap := hr c rfl
      have hquote := ne_quote_of_isGap hgap
      obtain ⟨ds, hds⟩ := singleLines_gap indent r hquote
      rw [List.nil_append, hds, List.cons_append]
      exact singleWord_stop (.inr hgap) (.inr hquote)
  | cons c w ih =>
    obtain ⟨hgap, hw⟩ := List.forall_mem_cons.mp hw
    rw [List.cons_append, singleLines, isBreak_of_not_gap hgap, if_neg Bool.false_ne_true,
      if_neg Bool.false_ne_true]
    by_cases hq : c = '\''
    · rw [if_pos hq, hq]
      show singleWord ('\'' :: '\'' :: (singleLines indent false (w ++ r) ++ '\'' :: tail)) = _
      rw [singleWord, ih hw]
    · rw [if_neg hq]
      show singleWord (c :: (singleLines indent false (w ++ r) ++ '\'' :: tail)) = _
      rw [singleWord, decide_eq_false hq, hgap, Bool.false_or, if_neg Bool.false_ne_true, ih hw]
      exact fun _ hc _ => hq hc

theorem readLines_breaks (limit column : Nat) {bs : List Char} (rest : List Char)
    (h : ∀ c ∈ bs, isBreak c = true ∧ c ≠ '\r' ∧ readBreak c = c) (hne : bs ≠ []) :
    Gap.readLines limit column (bs ++ rest)
      = (Gap.readLines limit 0 rest).map fun r => (bs ++ r.1, r.2) := by
  induction bs generalizing column with
  | nil => exact absurd rfl hne
  | cons b bs ih =>
    obtain ⟨⟨hb, hr, hread⟩, hbs⟩ := List.forall_mem_cons.mp h
    have htab : (decide (b = '\t') && decide (column < limit)) = false := by
      rw [decide_eq_false, Bool.false_and]
      rintro rfl
      cases hb
    rw [List.cons_append, Gap.readLines, htab, if_neg Bool.false_ne_true, isBlank_of_isBreak hb,
      if_neg Bool.false_ne_true, if_pos hb, hread]
    · by_cases hnil : bs = []
      · rw [hnil]
        rfl
      · rw [ih 0 hbs hnil, Option.map_map]
        rfl
    · exact fun _ hc _ => hr hc

end

/-- Separators and the indentation behind them are one gap, which stands for the separators. -/
theorem read_breaks {indent : Nat} {bs : List Char} {c : Char} (rest : List Char)
    (h : ∀ c ∈ bs, isBreak c = true ∧ c ≠ '\r' ∧ readBreak c = c) (hne : bs ≠ [])
    (hc : isGap c = false) :
    Gap.read 0 (bs ++ (blanks indent ++ c :: rest)) = some (⟨[], bs, indent⟩, c :: rest) := by
  have hlines := readLines_breaks 0 0 (blanks indent ++ c :: rest) h hne
  rw [readLines_blanks, Nat.zero_add, readLines_stop _ _ _ hc] at hlines
  cases bs with
  | nil => exact absurd rfl hne
  | cons b bs =>
    obtain ⟨hb, -, -⟩ := h b List.mem_cons_self
    rw [List.cons_append] at hlines ⊢
    rw [Gap.read, isBlank_of_isBreak hb, if_neg Bool.false_ne_true, if_pos hb, hlines]
    show some (Gap.mk [] (b :: bs ++ []) indent, _) = _
    rw [List.append_nil]

theorem text_breaks {indent : Nat} {bs : List Char} (h : ∀ c ∈ bs, c ≠ '\n') :
    (Gap.mk [] bs indent).text = bs := by
  cases bs with
  | nil => rfl
  | cons b bs =>
    have hb := h b List.mem_cons_self
    rw [Gap.text]
    split
    · next hnil => cases hnil
    · next hone => cases hone; exact absurd rfl hb
    · next hmore => cases hmore; exact absurd rfl hb
    · rfl

/-! ## whole strings -/

section
variable {cs r : List Char}

/-- Neither a blank nor a separator of such a string stands next to one of the other kind. -/
theorem SingleRun.no_gap_behind {as : List Char} {a : Char} (h : SingleRun (as ++ a :: r))
    (hother : ∀ c, r.head? = some c → (a = ' ' → c ≠ ' ') ∧ (isBreak a = true → isBreak c = false))
    (ha : isGap a = true) : ∀ c, r.head? = some c → isGap c = false := by
  intro c hc
  obtain ⟨r, rfl⟩ : ∃ r', r = c :: r' := by
    cases r with
    | nil => cases hc
    | cons d r => exact ⟨r, congrArg (· :: r) (Option.some.inj hc)⟩
  have hrun := SingleRun.right as h
  have hblank := (Bool.or_eq_false_iff.mp hrun.blankBreak).1
  have hbreak := (Bool.or_eq_false_iff.mp hrun.breakBlank).1
  refine Bool.eq_false_iff.mpr fun hgap => ?_
  obtain ⟨hsame, hsame'⟩ := hother c rfl
  -- a blank before a separator or behind one is ruled out, and two of a kind by `hother`
  rcases hrun.gap_cases (by simp) ha with rfl | ⟨hb, -⟩ <;>
    rcases hrun.gap_cases (c := c) (by simp) hgap with rfl | ⟨hb', -⟩
  · exact hsame rfl rfl
  · exact absurd (hblank.symm.trans hb') Bool.false_ne_true
  · exact absurd (hbreak.symm.trans (Bool.and_eq_true_iff.mpr ⟨hb, rfl⟩)) Bool.false_ne_true
  · rw [hsame' hb] at hb'
    cases hb'

theorem SingleRun.gap_blanks {k : Nat} (h : SingleRun (blanks (k + 1) ++ r))
    (hr : r.head? ≠ some ' ') (indent : Nat) (tail : List Char) :
    Gap.read 0 (singleLines indent false (blanks (k + 1) ++ r) ++ '\'' :: tail)
      = some (⟨blanks (k + 1), [], 0⟩, singleLines indent false r ++ '\'' :: tail) := by
  have hnext : ∀ d, r.head? = some d → isGap d = false := by
    rw [blanks_succ_append] at h
    refine h.no_gap_behind (fun d hd => ⟨fun _ => ?_, nofun⟩) (by decide)
    rintro rfl
    exact hr hd
  obtain ⟨d, ds, hd, hgap⟩ := singleLines_head hnext tail
  rw [singleLines_blanks, List.append_assoc, hd, read_blanks _ _ _ hgap]

theorem SingleRun.gap_breaks {bs : List Char} (h : SingleRun (bs ++ r)) (hne : bs ≠ [])
    (hbs : ∀ b ∈ bs, isBreak b = true) (hr : ∀ c, r.head? = some c → isBreak c = false)
    (indent : Nat) (tail : List Char) :
    Gap.read 0 (singleLines indent false (bs ++ r) ++ '\'' :: tail)
      = some (⟨[], bs, indent⟩, singleLines indent false r ++ '\'' :: tail) := by
  have hread : ∀ b ∈ bs, isBreak b = true ∧ b ≠ '\r' ∧ readBreak b = b := by
    intro b hb
    have hbreak := hbs b hb
    rcases h.gap_cases (List.mem_append_left r hb) (by rw [isGap, hbreak, Bool.or_true])
      with rfl | hrest
    · cases hbreak
    · exact hrest
  have hnext : ∀ d, r.head? = some d → isGap d = false := by
    obtain ⟨as, a, rfl⟩ : ∃ as a, bs = as ++ [a] :=
      ⟨_, _, (List.dropLast_concat_getLast hne).symm⟩
    have hbreak := hbs a (List.mem_append_right as List.mem_cons_self)
    rw [List.append_assoc] at h
    refine h.no_gap_behind (fun d hd => ⟨?_, fun _ => hr d hd⟩) (by rw [isGap, hbreak, Bool.or_true])
    rintro rfl
    cases hbreak
  obtain ⟨d, ds, hd, hgap⟩ := singleLines_head hnext tail
  rw [singleLines_breaks indent r hbs false hne, singleLines_lineStart hr, List.append_assoc,
    List.append_assoc, hd, read_breaks _ hread hne hgap]

/-- What is left of a string behind a word starts with a gap, and something shorter is left behind
that. -/
theorem SingleRun.gap_after (h : SingleRun cs) (hhead : ∀ c, cs.head? = some c → isGap c = true)
    (hne : cs ≠ []) {indent : Nat} (hindent : 0 < indent) :
    ∃ (g : Gap) (r : List Char), cs = g.text ++ r ∧ r.length < cs.length ∧
      (g.isBroken && g.column == 0) = false ∧
      ∀ tail, Gap.read 0 (singleLines indent false cs ++ '\'' :: tail)
        = some (g, singleLines indent false r ++ '\'' :: tail) := by
  obtain ⟨c, ds, hcs⟩ := List.exists_cons_of_ne_nil hne
  rcases h.gap_cases (hcs ▸ List.mem_cons_self) (hhead c (by rw [hcs]; rfl)) with rfl | ⟨hbreak, -⟩
  · obtain ⟨k, r, rfl, hr⟩ := exists_blanks ds
    obtain rfl : cs = blanks (k + 1) ++ r := hcs
    refine ⟨⟨blanks (k + 1), [], 0⟩, r, rfl, ?_, rfl, h.gap_blanks hr indent⟩
    rw [List.length_append, blanks, List.length_replicate]
    omega
  · obtain ⟨bs, r, rfl, hbs, hr⟩ := exists_span isBreak cs
    have hsome : bs ≠ [] := by
      rintro rfl
      have hfalse := hr c (by rw [← List.nil_append r, hcs]; rfl)
      rw [hbreak] at hfalse
      cases hfalse
    refine ⟨⟨[], bs, indent⟩, r, ?_, ?_, ?_, h.gap_breaks hsome hbs hr indent⟩
    · rw [text_breaks fun b hb => (h.shown b (List.mem_append_left r hb)).2]
    · have := List.length_pos_iff.mpr hsome
      rw [List.length_append]
      omega
    · have hcolumn : (indent == 0) = false := beq_false_of_ne (Nat.ne_of_gt hindent)
      rw [hcolumn, Bool.and_false]

end

theorem quotedText_single {indent : Nat} (hindent : 0 < indent) {tail : List Char}
    (htail : tail.head? ≠ some '\'') {cs : List Char} (h : SingleRun cs) {fuel : Nat}
    (hfuel : cs.length < fuel) :
    quotedText '\'' (fun cs => some (singleWord cs)) fuel false
      (singleLines indent false cs ++ '\'' :: tail) = some (cs, tail) := by
  induction hlen : cs.length using Nat.strongRecOn generalizing cs fuel with
  | _ m ih =>
    obtain ⟨fuel, rfl⟩ : ∃ f, fuel = f + 1 := ⟨fuel - 1, by omega⟩
    obtain ⟨w, r, rfl, hw, hr⟩ := exists_span (!isGap ·) cs
    have hw : ∀ c ∈ w, isGap c = false := fun c hc => (Bool.not_eq_true' _).mp (hw c hc)
    have hr : ∀ c, r.head? = some c → isGap c = true :=
      fun c hc => (Bool.not_eq_false' _).mp (hr c hc)
    have hword := congrArg some (singleWord_written indent htail hw hr)
    have hne : singleLines indent false (w ++ r) ++ '\'' :: tail ≠ [] := by simp
    by_cases hnil : r = []
    · rw [hnil] at hword
      rw [hnil] at hne ⊢
      rw [quotedText_end fuel hne hword, List.append_nil]
    · obtain ⟨g, r', hsplit, hless, hline, hread⟩ :=
        (SingleRun.right w h).gap_after hr hnil hindent
      have hrun : SingleRun r' := SingleRun.right (w ++ g.text) (by
        rw [List.append_assoc, ← hsplit]
        exact h)
      rw [List.length_append] at hfuel hlen
      have hrest := ih r'.length (by omega) hrun (show r'.length < fuel by omega) rfl
      have hread' := hread tail
      obtain ⟨c, ds, rfl⟩ := List.exists_cons_of_ne_nil hnil
      have hquote := ne_quote_of_isGap (hr c rfl)
      obtain ⟨es, hes⟩ := singleLines_gap indent ds hquote
      rw [hes, List.cons_append] at hword hread'
      rw [quotedText_gap hne hword hquote hread' hline hrest, List.append_assoc, ← hsplit]

/-- **A string between single quotes reads back.** -/
theorem readSingle_written {indent : Nat} (hindent : 0 < indent) {cs tail : List Char}
    (h : isSingleSafe cs = true) (hfeed : cs.contains '\n' = false)
    (htail : tail.head? ≠ some '\'') {fuel : Nat} (hfuel : cs.length < fuel) :
    readSingle fuel (singleLines indent false cs ++ '\'' :: tail) = some (cs, tail) :=
  quotedText_single hindent htail (singleRun_of_safe h hfeed) hfuel

end AccessFilter.Yaml
