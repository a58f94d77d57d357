import AccessFilter.Proofs.Yaml.Layout.State
import AccessFilter.Proofs.Yaml.Scalar.Literal
import AccessFilter.Proofs.Yaml.Scalar.Single
import AccessFilter.Yaml.Writer

/-!
# Tokens of written scalars

A scalar is written in one of four forms. Each gives one token, and where the next token stands on a
line of its own, the state behind it does not depend on the form.

* `CanStand`          what each form can hold;
* `writtenAs`         a string in a form;
* `Layout.reaches_line`    a scalar at the end of a line;
* `Layout.reaches_shortKey`   a scalar before a colon.
-/

namespace AccessFilter.Yaml

/-! ## the forms -/

/-- A string in a form; further lines are indented. -/
def writtenAs (indent : Nat) (style : ScalarStyle) (cs : List Char) : List Char :=
  match style with
  | .plain => cs
  | .singleQuoted => writtenSingle indent cs
  | .doubleQuoted => writtenDouble cs
  | .literal => writtenLiteral indent cs
  | .folded => cs

theorem writtenString_eq (indent : Nat) (s : String) :
    writtenString indent s = writtenAs indent (styleOf s) s.toList := by
  rw [writtenString]
  cases styleOf s <;> rfl

/-- Whether a form can hold a string that reads back. -/
def CanStand (style : ScalarStyle) (cs : List Char) : Prop :=
  match style with
  | .plain => isPlainSafe cs = true ∧ cs ≠ []
  | .singleQuoted => isSingleSafe cs = true ∧ cs.contains '\n' = false
  | .doubleQuoted => True
  | .literal => (∀ c ∈ cs, isShown c = true) ∧ cs ≠ []
  | .folded => False

theorem readsOtherwise_empty : readsOtherwise "" = true := rfl

/-- **Every string can stand in the form in which it is written.** -/
theorem canStand_styleOf (s : String) : CanStand (styleOf s) s.toList := by
  rw [styleOf]
  by_cases hfeed : s.toList.contains '\n' = true
  · rw [if_pos hfeed]
    by_cases hliteral : isLiteralSafe s.toList = true
    · rw [if_pos hliteral]
      simp only [isLiteralSafe, Bool.and_eq_true, List.all_eq_true] at hliteral
      refine ⟨hliteral.1.1, ?_⟩
      intro hnil
      rw [hnil] at hfeed
      cases hfeed
    · rw [if_neg hliteral]
      trivial
  · rw [if_neg hfeed]
    by_cases hplain : (isPlainSafe s.toList && !readsOtherwise s) = true
    · rw [if_pos hplain]
      obtain ⟨hsafe, hreads⟩ := Bool.and_eq_true_iff.mp hplain
      refine ⟨hsafe, fun hnil => ?_⟩
      rw [String.toList_eq_nil_iff.mp hnil, readsOtherwise_empty] at hreads
      cases hreads
    · rw [if_neg hplain]
      by_cases hsingle : isSingleSafe s.toList = true
      · rw [if_pos hsingle]
        exact ⟨hsingle, Bool.eq_false_iff.mpr hfeed⟩
      · rw [if_neg hsingle]
        trivial

/-! ## lengths and ends -/

theorem length_le_singleLines (indent : Nat) (lineStart : Bool) (cs : List Char) :
    cs.length ≤ (singleLines indent lineStart cs).length := by
  induction cs generalizing lineStart with
  | nil => exact Nat.zero_le _
  | cons c cs ih =>
    have htrue := ih true
    have hfalse := ih false
    rw [singleLines]
    split
    · rw [List.length_cons, List.length_cons]
      omega
    · rw [List.length_append, List.length_append, List.length_cons]
      have hquote : 1 ≤ (if c = '\'' then ['\'', '\''] else [c]).length := by
        split <;> simp
      omega

theorem length_le_flatMap_writtenEscape (cs : List Char) :
    cs.length ≤ (cs.flatMap writtenEscape).length := by
  induction cs with
  | nil => exact Nat.zero_le _
  | cons c cs ih =>
    have hpos : 1 ≤ (writtenEscape c).length := by
      have hw := writtenAs_writtenEscape c
      generalize writtenEscape c = written at hw ⊢
      cases hw <;> simp
    rw [List.flatMap_cons, List.length_append, List.length_cons]
    omega

theorem length_le_indentedLines (indent : Nat) (lineStart : Bool) (cs : List Char) :
    cs.length ≤ (indentedLines indent lineStart cs).length := by
  induction cs generalizing lineStart with
  | nil => exact Nat.zero_le _
  | cons c cs ih =>
    have htrue := ih true
    have hfalse := ih false
    rw [indentedLines]
    split
    · rw [List.length_cons, List.length_cons]
      omega
    · rw [List.length_append, List.length_cons, List.length_cons]
      omega

theorem length_le_writtenAs (indent : Nat) (style : ScalarStyle) (cs : List Char) :
    cs.length ≤ (writtenAs indent style cs).length := by
  cases style with
  | plain => exact Nat.le_refl _
  | folded => exact Nat.le_refl _
  | singleQuoted =>
    have := length_le_singleLines indent false cs
    rw [writtenAs, writtenSingle_eq, List.length_append, List.length_cons]
    omega
  | doubleQuoted =>
    have := length_le_flatMap_writtenEscape cs
    rw [writtenAs, writtenDouble, List.length_append, List.length_cons]
    omega
  | literal =>
    have := length_le_indentedLines indent true cs
    rw [writtenAs, writtenLiteral, List.length_append, List.length_cons, List.length_cons]
    omega

theorem writtenAs_ne_nil {style : ScalarStyle} (indent : Nat) {cs : List Char}
    (h : CanStand style cs) : writtenAs indent style cs ≠ [] := by
  cases style with
  | plain => exact h.2
  | folded => exact h.elim
  | singleQuoted => exact List.cons_ne_nil _ _
  | doubleQuoted => exact List.cons_ne_nil _ _
  | literal => exact List.cons_ne_nil _ _

theorem atToken_writtenAs {style : ScalarStyle} (indent : Nat) {cs : List Char}
    (h : CanStand style cs) (tail : List Char) : AtToken (writtenAs indent style cs ++ tail) := by
  cases style with
  | folded => exact h.elim
  | singleQuoted => exact atToken_char (by decide) _
  | doubleQuoted => exact atToken_char (by decide) _
  | literal => exact atToken_char (by decide) _
  | plain =>
    obtain ⟨hsafe, hne⟩ := h
    obtain ⟨hrun, hhead, hmark⟩ := plainRun_of_safe hsafe
    obtain ⟨c, cs, rfl⟩ := List.exists_cons_of_ne_nil hne
    have hshown := (hrun.shown c List.mem_cons_self).1
    refine atToken_char ⟨hrun.not_gap ?_, ?_, ?_⟩ _
    · rintro rfl
      exact hhead rfl
    · rintro rfl
      cases hmark
    · rintro rfl
      cases hshown

theorem getLast?_indentedLines (indent : Nat) (lineStart : Bool) (cs : List Char) :
    (indentedLines indent lineStart cs).getLast? = cs.getLast? := by
  induction cs generalizing lineStart with
  | nil => rfl
  | cons c cs ih =>
    rw [indentedLines]
    split
    · rw [List.getLast?_cons, ih, List.getLast?_cons]
    · rw [List.getLast?_append, List.getLast?_cons, ih, List.getLast?_cons]
      rfl

/-- Behind a literal block there is a line feed only where the last line does not end with one. -/
theorem endLine_literal (indent : Nat) {cs : List Char} (hne : cs ≠ []) :
    endLine (writtenLiteral indent cs) = writtenLiteral indent cs ++ blockEndLine cs := by
  have hlast : (writtenLiteral indent cs).getLast? = cs.getLast? := by
    rw [writtenLiteral, List.getLast?_append, List.getLast?_cons, getLast?_indentedLines,
      List.getLast?_eq_some_getLast hne]
    rfl
  rw [endLine, blockEndLine, hlast]
  split
  · exact (List.append_nil _).symm
  · rfl

/-- A literal block ends with a line break. -/
theorem endLine_literal_last (indent : Nat) {cs : List Char} (hne : cs ≠ [])
    (hshown : ∀ c ∈ cs, isShown c = true) :
    ∃ w b, endLine (writtenLiteral indent cs) = w ++ [b] ∧ isBreak b = true ∧ b ≠ '\r' := by
  rw [endLine_literal indent hne, blockEndLine]
  by_cases hlast : cs.getLast?.any isBreak = true
  · obtain ⟨b, hb, hbreak⟩ := (Option.any_eq_true _ _).mp hlast
    obtain ⟨as, has⟩ := List.getLast?_eq_some_iff.mp hb
    have hw : (writtenLiteral indent cs).getLast? = some b := by
      rw [writtenLiteral, List.getLast?_append, List.getLast?_cons, getLast?_indentedLines, hb]
      rfl
    obtain ⟨w, hw⟩ := List.getLast?_eq_some_iff.mp hw
    rw [if_pos hlast, List.append_nil]
    exact ⟨w, b, hw, hbreak, (isBreak_shown (hshown b (List.mem_of_getLast? hb)) hbreak).1⟩
  · rw [if_neg hlast]
    exact ⟨_, '\n', rfl, isBreak_feed, by decide⟩

theorem length_le_endLine (cs : List Char) : cs.length ≤ (endLine cs).length := by
  rw [endLine]
  split
  · exact Nat.le_refl _
  · rw [List.length_append]
    omega

theorem endLine_of_last {cs : List Char} (h : ∀ c, cs.getLast? = some c → isBreak c = false) :
    endLine cs = cs ++ ['\n'] := by
  rw [endLine, if_neg]
  intro hany
  obtain ⟨c, hc, hb⟩ := (Option.any_eq_true _ _).mp hany
  rw [h c hc] at hb
  cases hb

namespace Layout

/-! ## the token at a first character -/

section
variable {fuel : Nat} {p : Position} {is : List Nat} {key : Option PossibleKey} {allowed : Bool}
  {T : List Token} {cs : List Char}

theorem take_single : (stand fuel p is key allowed T ('\'' :: cs)).take
    = (stand fuel p is key allowed T ('\'' :: cs)).word (readQuoted .singleQuoted readSingle) := by
  show tokenAt _ '\'' cs = _
  rw [tokenAt, if_neg (by simp), if_neg (by simp [atDocumentMark, stand])]
  rfl

theorem take_double : (stand fuel p is key allowed T ('"' :: cs)).take
    = (stand fuel p is key allowed T ('"' :: cs)).word (readQuoted .doubleQuoted readDouble) := by
  show tokenAt _ '"' cs = _
  rw [tokenAt, if_neg (by simp), if_neg (by simp [atDocumentMark, stand])]
  rfl

theorem take_literal : (stand fuel p is key allowed T ('|' :: cs)).take
    = (stand fuel p is key allowed T ('|' :: cs)).blockScalar .literal := by
  show tokenAt _ '|' cs = _
  rw [tokenAt, if_neg (by simp), if_neg (by simp [atDocumentMark, stand])]
  rfl

/-- What stands behind a plain scalar is no part of a document mark. -/
def NoMark (tail : List Char) : Prop := ∀ c, tail.head? = some c → c ≠ '-' ∧ c ≠ '.'

theorem eq_of_atDocumentMark (h : atDocumentMark cs = true) :
    ∃ m rest, (m = '-' ∨ m = '.') ∧ cs = m :: m :: m :: rest := by
  unfold atDocumentMark at h
  split at h
  · exact ⟨'-', _, .inl rfl, rfl⟩
  · exact ⟨'.', _, .inr rfl, rfl⟩
  · cases h

theorem not_documentMark {tail : List Char} (hne : cs ≠ []) (h : startsLikeMark cs = false)
    (htail : NoMark tail) : atDocumentMark (cs ++ tail) = false := by
  refine Bool.eq_false_iff.mpr fun hmark => ?_
  obtain ⟨m, rest, hm, heq⟩ := eq_of_atDocumentMark hmark
  have hnot : tail.head? ≠ some m := by
    intro hhead
    rcases hm with rfl | rfl
    · exact (htail _ hhead).1 rfl
    · exact (htail _ hhead).2 rfl
  -- the mark does not reach into what stands behind, so the string starts with it
  rcases cs with _ | ⟨a, _ | ⟨b, _ | ⟨c, cs⟩⟩⟩
  · exact hne rfl
  · simp only [List.cons_append, List.nil_append, List.cons.injEq] at heq
    exact hnot (by rw [heq.2]; rfl)
  · simp only [List.cons_append, List.nil_append, List.cons.injEq] at heq
    exact hnot (by rw [heq.2.2]; rfl)
  · simp only [List.cons_append, List.cons.injEq] at heq
    obtain ⟨rfl, rfl, rfl, -⟩ := heq
    rcases hm with rfl | rfl <;> cases h

/-- The characters that start something else than a plain scalar. -/
theorem first_of_plain {c : Char} (h : startsLikeMark (c :: cs) = false) :
    c ∉ ['#', ',', '[', ']', '\x7b', '\x7d', '&', '*', '!', '|', '>', '\'', '"', '%', '@', '\x60'] ∧
      (c ∈ ['?', ':', '-'] → atGap cs = false) := by
  unfold startsLikeMark at h
  split at h
  · cases h
  · cases h
  · next c' cs' _ _ heq =>
    obtain ⟨rfl, rfl⟩ := List.cons.inj heq
    obtain ⟨hnot, hcolon⟩ := Bool.or_eq_false_iff.mp h
    refine ⟨of_decide_eq_false hnot, fun hc => ?_⟩
    rw [decide_eq_true hc, Bool.true_and] at hcolon
    exact hcolon
  · next heq => cases heq

theorem tokenAt_plain {s : Layout} {c : Char} {rest : List Char} (hflow : s.inFlow = false)
    (hdoc : atDocumentMark s.rest = false) (hgap : isGap c = false)
    (hfirst : c ∉ ['#', ',', '[', ']', '\x7b', '\x7d', '&', '*', '!', '|', '>', '\'', '"', '%', '@',
      '\x60'])
    (hcolon : c ∈ ['?', ':', '-'] → atGap rest = false) : s.tokenAt c rest = s.plainScalar := by
  have hnot : ∀ d, d ∈ ['?', ':', '-'] → (decide (c = d) && atGap rest) = false := by
    intro d hd
    by_cases hcd : c = d
    · rw [hcolon (hcd ▸ hd), Bool.and_false]
    · rw [decide_eq_false hcd, Bool.false_and]
  simp only [List.mem_cons, List.not_mem_nil, or_false, not_or] at hfirst
  obtain ⟨h1, h2, h3, h4, h5, h6, h7, h8, h9, h10, h11, h12, h13, h14, h15, h16⟩ := hfirst
  have hstarts : startsPlain c = true := by
    rw [startsPlain]
    simp [h1, h7, h8, h9, h10, h11, h12, h13, h14, h15, h16]
  rw [tokenAt, hflow, hdoc, if_neg (by simp [h14]), if_neg (by simp), if_neg h3, if_neg h5,
    if_neg h4, if_neg h6, if_neg h2, hnot '-' (by simp), if_neg Bool.false_ne_true,
    Bool.false_or, hnot '?' (by simp), if_neg Bool.false_ne_true, hnot ':' (by simp),
    if_neg Bool.false_ne_true, if_neg h8, if_neg h7, if_neg h9, decide_eq_false h10, Bool.false_and,
    if_neg Bool.false_ne_true, decide_eq_false h11, Bool.false_and, if_neg Bool.false_ne_true,
    if_neg h12, if_neg h13, hstarts, hgap]
  rfl

theorem take_plain {tail : List Char} (hne : cs ≠ []) (h : isPlainSafe cs = true)
    (htail : NoMark tail) :
    (stand fuel p is key allowed T (cs ++ tail)).take
      = (stand fuel p is key allowed T (cs ++ tail)).plainScalar := by
  obtain ⟨hrun, hhead, hmark⟩ := plainRun_of_safe h
  have hdoc := not_documentMark hne hmark htail
  obtain ⟨c, cs, rfl⟩ := List.exists_cons_of_ne_nil hne
  have hblank : c ≠ ' ' := by
    rintro rfl
    exact hhead rfl
  obtain ⟨hfirst, hcolon⟩ := first_of_plain hmark
  refine tokenAt_plain (c := c) rfl hdoc (hrun.not_gap hblank) hfirst
    fun hc => ?_
  cases cs with
  | nil => cases hcolon hc
  | cons d cs => exact hcolon hc

/-! ## what a token leaves -/

/-- The possible key that is remembered at a word. -/
def saved (p : Position) (is : List Nat) (allowed : Bool) (T : List Token) : Option PossibleKey :=
  if allowed then some ⟨is.head? == some p.column, T.length, p⟩ else none

theorem saveKey_stand {rest : List Char} : (stand fuel p is none allowed T rest).saveKey
    = some (stand fuel p is (saved p is allowed T) allowed T rest) := by
  cases allowed <;> rfl

theorem act_word (read : Layout → Option (Token × List Char)) {t : Token} {w rest : List Char}
    {key' : Option PossibleKey}
    (htake : (stand fuel p is none allowed T (w ++ rest)).take
      = (stand fuel p is none allowed T (w ++ rest)).word read)
    (hread : ∀ key, read (stand fuel p is key allowed T (w ++ rest)) = some (t, rest))
    (hkey : freshKey (p.after rest w) (saved p is allowed T) = some key') :
    (stand fuel p is none allowed T (w ++ rest)).act
      = some (stand fuel (p.after rest w) is key' false (t :: T) rest) := by
  rw [act, htake, word, saveKey_stand]
  show ((read (stand fuel p is (saved p is allowed T) allowed T (w ++ rest))).bind fun r =>
    some { ((stand fuel p is (saved p is allowed T) allowed T (w ++ rest)).moveTo r.2).push r.1 with
      keyAllowed := false }).bind dropStale = _
  rw [hread]
  show dropStale { ((stand fuel p is (saved p is allowed T) allowed T (w ++ rest)).moveTo rest).push t
    with keyAllowed := false } = _
  rw [moveTo_stand]
  exact dropStale_stand hkey

theorem act_plain {w rest : List Char} {crosses : Bool} {key' : Option PossibleKey}
    (htake : (stand fuel p is none allowed T (w ++ rest)).take
      = (stand fuel p is none allowed T (w ++ rest)).plainScalar)
    (hread : readPlain false (stand fuel p is none allowed T []).plainLimit fuel (w ++ rest)
      = some ⟨cs, crosses, rest⟩)
    (hkey : freshKey (p.after rest w) (saved p is allowed T) = some key') :
    (stand fuel p is none allowed T (w ++ rest)).act
      = some (stand fuel (p.after rest w) is key' crosses
          (.scalar .plain (String.ofList cs) :: T) rest) := by
  rw [act, htake, plainScalar, saveKey_stand]
  show ((readPlain false (stand fuel p is none allowed T []).plainLimit fuel (w ++ rest)).bind
    fun t => some { ((stand fuel p is (saved p is allowed T) allowed T (w ++ rest)).moveTo t.rest).push
      (.scalar .plain (String.ofList t.text)) with keyAllowed := t.crossesLines }).bind dropStale = _
  rw [hread]
  show dropStale { ((stand fuel p is (saved p is allowed T) allowed T (w ++ rest)).moveTo rest).push
    (.scalar .plain (String.ofList cs)) with keyAllowed := crosses } = _
  rw [moveTo_stand]
  exact dropStale_stand hkey

theorem act_literal {i : Nat} {w rest : List Char}
    (hread : readBlock true (some i) fuel (w ++ rest) = some (cs, rest)) :
    (stand fuel p (i :: is) none allowed T ('|' :: (w ++ rest))).act
      = some (stand fuel (p.after rest ('|' :: w)) (i :: is) none true
          (.scalar .literal (String.ofList cs) :: T) rest) := by
  rw [act, take_literal]
  show ((readBlock true (some i) fuel (w ++ rest)).bind fun r =>
    some { ((stand fuel p (i :: is) none allowed T ('|' :: (w ++ rest))).moveTo r.2).push
      (.scalar .literal (String.ofList r.1)) with keyAllowed := true }).bind dropStale = _
  rw [hread]
  show dropStale { ((stand fuel p (i :: is) none allowed T ('|' :: w ++ rest)).moveTo rest).push
    (.scalar .literal (String.ofList cs)) with keyAllowed := true } = _
  rw [moveTo_stand]
  exact dropStale_stand rfl

theorem saved_passing (h : allowed = true → is.head? ≠ some p.column) :
    Passing p (saved p is allowed T) := by
  intro k hk
  cases allowed with
  | false => cases hk
  | true =>
    cases hk
    exact ⟨beq_false_of_ne (h rfl), Nat.le_refl _⟩

theorem act_quoted {style : ScalarStyle} {indent : Nat} {rest : List Char}
    {key' : Option PossibleKey} (hstyle : style = .singleQuoted ∨ style = .doubleQuoted)
    (hstand : CanStand style cs) (hindent : 0 < indent) (hrest : rest.head? ≠ some '\'')
    (hfuel : cs.length < fuel)
    (hkey : freshKey (p.after rest (writtenAs indent style cs)) (saved p is allowed T) = some key') :
    (stand fuel p is none allowed T (writtenAs indent style cs ++ rest)).act
      = some (stand fuel (p.after rest (writtenAs indent style cs)) is key' false
          (.scalar style (String.ofList cs) :: T) rest) := by
  rcases hstyle with rfl | rfl
  · obtain ⟨hsafe, hfeed⟩ := hstand
    have hread := readSingle_written hindent hsafe hfeed hrest hfuel
    have hw : writtenAs indent .singleQuoted cs ++ rest
        = '\'' :: (singleLines indent false cs ++ '\'' :: rest) := by
      rw [writtenAs, writtenSingle_eq, List.append_assoc]
      rfl
    refine act_word (readQuoted .singleQuoted readSingle) ?_ (fun key => ?_) hkey
    · rw [hw]
      exact take_single
    · rw [hw]
      show (readSingle fuel (singleLines indent false cs ++ '\'' :: rest)).bind _ = _
      rw [hread]
      rfl
  · have hread := readDouble_written cs rest hfuel
    have hw : writtenAs indent .doubleQuoted cs ++ rest
        = '"' :: (cs.flatMap writtenEscape ++ '"' :: rest) := by
      rw [writtenAs, writtenDouble, List.append_assoc]
      rfl
    refine act_word (readQuoted .doubleQuoted readDouble) ?_ (fun key => ?_) hkey
    · rw [hw]
      exact take_double
    · rw [hw]
      show (readDouble fuel (cs.flatMap writtenEscape ++ '"' :: rest)).bind _ = _
      rw [hread]
      rfl

theorem noMark_feed (tail : List Char) : NoMark ('\n' :: tail) := by
  intro c hc
  cases hc
  decide

theorem noMark_colon (tail : List Char) : NoMark (':' :: tail) := by
  intro c hc
  cases hc
  decide

theorem getLast?_plain (h : isPlainSafe cs = true) :
    ∀ c, cs.getLast? = some c → isBreak c = false := fun c hc =>
  ((plainRun_of_safe h).1.shown c (List.mem_of_getLast? hc)).2

theorem getLast?_quoted (indent : Nat) (cs : List Char) {style : ScalarStyle}
    (hstyle : style = .singleQuoted ∨ style = .doubleQuoted) :
    ∀ c, (writtenAs indent style cs).getLast? = some c → isBreak c = false := by
  have hlast : ∃ w q, writtenAs indent style cs = w ++ [q] ∧ isBreak q = false := by
    rcases hstyle with rfl | rfl
    · exact ⟨_, '\'', writtenSingle_eq indent cs, by decide⟩
    · exact ⟨_, '"', rfl, by decide⟩
  obtain ⟨w, q, hw, hq⟩ := hlast
  intro c hc
  rw [hw, List.getLast?_concat] at hc
  exact Option.some.inj hc ▸ hq

section
variable {i n : Nat} {x : List Char}

theorem reaches_line_quoted {style : ScalarStyle}
    (hstyle : style = .singleQuoted ∨ style = .doubleQuoted) (hstand : CanStand style cs)
    (hpassing : Passing p (saved p (i :: is) allowed T)) (hx : AtToken x) (hfuel : cs.length < fuel) :
    ∃ q : Position, q.column = n ∧
      Reaches (stand fuel p (i :: is) none allowed T
          (endLine (writtenAs (i + 2) style cs) ++ (blanks n ++ x)))
        (arrived fuel q (i :: is) (.scalar style (String.ofList cs) :: T) x) := by
  rw [endLine_of_last (getLast?_quoted (i + 2) cs hstyle), List.append_assoc]
  obtain ⟨key', hfresh, hpass⟩ := hpassing.exists_freshKey
    (Position.line_le_after p ('\n' :: (blanks n ++ x)) (writtenAs (i + 2) style cs))
  have hact := act_quoted hstyle hstand (Nat.succ_pos (i + 1))
    (show ('\n' :: (blanks n ++ x)).head? ≠ some '\'' from nofun) hfuel hfresh
  refine ⟨_, (after_feed x n).1, .one isOpen_stand isOpen_stand hact (land_feed hx hpass n) ?_⟩
  simp only [arrived, stand, List.length_append, List.length_cons, List.length_nil]
  omega

/-- The reader of a plain scalar goes on to the next token. -/
theorem reaches_line_plain (hstand : CanStand .plain cs)
    (hpassing : Passing p (saved p (i :: is) allowed T)) (hn : n ≤ i) (hx : AtToken x)
    (hfuel : cs.length < fuel) :
    ∃ q : Position, q.column = n ∧
      Reaches (stand fuel p (i :: is) none allowed T
          (endLine (writtenAs (i + 2) .plain cs) ++ (blanks n ++ x)))
        (arrived fuel q (i :: is) (.scalar .plain (String.ofList cs) :: T) x) := by
  obtain ⟨hsafe, hne⟩ := hstand
  have hline : endLine (writtenAs (i + 2) .plain cs) ++ (blanks n ++ x)
      = (cs ++ '\n' :: blanks n) ++ x := by
    rw [show writtenAs (i + 2) .plain cs = cs from rfl, endLine_of_last (getLast?_plain hsafe)]
    simp
  have hsplit : cs ++ '\n' :: (blanks n ++ x) = (cs ++ '\n' :: blanks n) ++ x := by simp
  have hread := readPlain_of_safe (plainStop_feed (Nat.lt_succ_of_le hn) hx) hsafe hfuel
  have htake : (stand fuel p (i :: is) none allowed T (cs ++ '\n' :: (blanks n ++ x))).take = _ :=
    take_plain hne hsafe (noMark_feed (blanks n ++ x))
  rw [hsplit] at hread htake
  obtain ⟨hcolumn, hless⟩ := Position.after_indentation p x cs n isBreak_feed (by decide)
  rw [hline]
  refine ⟨_, hcolumn, .one isOpen_stand isOpen_stand
    (act_plain htake hread (hpassing.freshKey hless)) (land_token hx) ?_⟩
  simp only [arrived, stand, List.length_append, List.length_cons]
  omega

/-- The reader of a literal block goes on to the next token, too. -/
theorem reaches_line_literal (hstand : CanStand .literal cs) (hn : n ≤ i) (hx : AtToken x)
    (hfuel : cs.length < fuel) :
    ∃ q : Position, q.column = n ∧
      Reaches (stand fuel p (i :: is) none allowed T
          (endLine (writtenAs (i + 2) .literal cs) ++ (blanks n ++ x)))
        (arrived fuel q (i :: is) (.scalar .literal (String.ofList cs) :: T) x) := by
  obtain ⟨hshown, hne⟩ := hstand
  have hread := readBlock_written (show n < i + 2 by omega) hx hshown hne hfuel
  -- everything behind the mark of the block, up to the next token
  obtain ⟨w, hw⟩ : ∃ w, endLine (writtenLiteral (i + 2) cs) ++ blanks n = '|' :: w := by
    rw [endLine_literal _ hne]
    exact ⟨_, rfl⟩
  have hsplit : literalMarks cs ++ '\n' :: (indentedLines (i + 2) true cs ++
      (blockEndLine cs ++ (blanks n ++ x))) = w ++ x := by
    have hwx := congrArg (· ++ x) hw
    rw [endLine_literal _ hne, writtenLiteral] at hwx
    simpa using hwx
  obtain ⟨v, b, hv, hbreak, hreturn⟩ := endLine_literal_last (i + 2) hne hshown
  have hcolumn : (p.after x ('|' :: w)).column = n := by
    rw [← hw, hv, List.append_assoc]
    exact (Position.after_indentation p x v n hbreak hreturn).1
  rw [hsplit] at hread
  show ∃ q : Position, q.column = n ∧ Reaches (stand fuel p (i :: is) none allowed T
    (endLine (writtenLiteral (i + 2) cs) ++ (blanks n ++ x))) _
  rw [← List.append_assoc, hw]
  refine ⟨_, hcolumn, .one isOpen_stand isOpen_stand (act_literal hread) (land_token hx) ?_⟩
  simp only [arrived, stand, List.length_cons, List.length_append]
  omega

/-- **A scalar at the end of a line.** The next token stands on a line of its own, not further in than
the collection around the scalar. -/
theorem reaches_line {style : ScalarStyle} (hstand : CanStand style cs)
    (hkey : allowed = true → i ≠ p.column) (hn : n ≤ i) (hx : AtToken x)
    (hfuel : cs.length < fuel) :
    ∃ q : Position, q.column = n ∧
      Reaches (stand fuel p (i :: is) none allowed T
          (endLine (writtenAs (i + 2) style cs) ++ (blanks n ++ x)))
        (arrived fuel q (i :: is) (.scalar style (String.ofList cs) :: T) x) := by
  have hpassing : Passing p (saved p (i :: is) allowed T) :=
    saved_passing fun h e => hkey h (Option.some.inj e)
  cases style with
  | singleQuoted => exact reaches_line_quoted (.inl rfl) hstand hpassing hx hfuel
  | doubleQuoted => exact reaches_line_quoted (.inr rfl) hstand hpassing hx hfuel
  | folded => exact hstand.elim
  | plain => exact reaches_line_plain hstand hpassing hn hx hfuel
  | literal => exact reaches_line_literal hstand hn hx hfuel

end

/-! ## scalars before a colon -/

/-- On one line a quote takes at most twice as many octets, an escape four times as many. -/
theorem octetCount_singleLines (indent : Nat) (h : ∀ c ∈ cs, isBreak c = false) :
    (∀ c ∈ singleLines indent false cs, isBreak c = false) ∧
      octetCount (singleLines indent false cs) ≤ 4 * octetCount cs := by
  induction cs with
  | nil => exact ⟨nofun, Nat.zero_le _⟩
  | cons c cs ih =>
    obtain ⟨hc, hcs⟩ := List.forall_mem_cons.mp h
    obtain ⟨hbreak, hoctets⟩ := ih hcs
    rw [singleLines, hc, if_neg Bool.false_ne_true, if_neg Bool.false_ne_true, List.nil_append]
    by_cases hquote : c = '\''
    · rw [if_pos hquote]
      refine ⟨?_, ?_⟩
      · exact List.forall_mem_cons.mpr ⟨rfl, List.forall_mem_cons.mpr ⟨rfl, hbreak⟩⟩
      · rw [octetCount_append, octetCount_cons, hquote]
        show 2 + _ ≤ 4 * (1 + octetCount cs)
        omega
    · rw [if_neg hquote]
      refine ⟨List.forall_mem_cons.mpr ⟨hc, hbreak⟩, ?_⟩
      rw [octetCount_append, octetCount_cons, octetCount_cons]
      show c.utf8Size + 0 + _ ≤ _
      omega

theorem octetCount_flatMap_writtenEscape (cs : List Char) :
    octetCount (cs.flatMap writtenEscape) ≤ 4 * octetCount cs := by
  induction cs with
  | nil => exact Nat.zero_le _
  | cons c cs ih =>
    have hc := octetCount_writtenEscape c
    rw [List.flatMap_cons, octetCount_append, octetCount_cons]
    omega

theorem octetCount_quote {q : Char} {w : List Char} {n : Nat}
    (h : (∀ c ∈ w, isBreak c = false) ∧ octetCount w ≤ n) (hq : isAscii q = true) :
    (∀ c ∈ q :: w ++ [q], isBreak c = false) ∧ octetCount (q :: w ++ [q]) ≤ n + 2 := by
  obtain ⟨hbreak, hoctets⟩ := h
  have hline := (isShown_of_ascii hq).2
  refine ⟨List.forall_mem_append.mpr ⟨List.forall_mem_cons.mpr ⟨hline, hbreak⟩,
    List.forall_mem_singleton.mpr hline⟩, ?_⟩
  rw [octetCount_append, octetCount_cons, utf8Size_of_ascii hq, octetCount_cons,
    utf8Size_of_ascii hq]
  show 1 + octetCount w + (1 + 0) ≤ n + 2
  omega

theorem octetCount_writtenAs {style : ScalarStyle} (hstyle : style ≠ .literal) (indent : Nat)
    (h : ∀ c ∈ cs, isBreak c = false) :
    (∀ c ∈ writtenAs indent style cs, isBreak c = false) ∧
      octetCount (writtenAs indent style cs) ≤ 4 * octetCount cs + 2 := by
  cases style with
  | plain => exact ⟨h, by show octetCount cs ≤ _; omega⟩
  | folded => exact ⟨h, by show octetCount cs ≤ _; omega⟩
  | literal => exact absurd rfl hstyle
  | singleQuoted =>
    rw [writtenAs, writtenSingle_eq]
    exact octetCount_quote (octetCount_singleLines indent h) rfl
  | doubleQuoted =>
    have hbreak : ∀ c ∈ cs.flatMap writtenEscape, isBreak c = false := by
      intro c hc
      obtain ⟨d, -, hd⟩ := List.mem_flatMap.mp hc
      exact (writtenEscape_shown hd).2
    exact octetCount_quote ⟨hbreak, octetCount_flatMap_writtenEscape cs⟩ rfl

/-- A key without a question mark is one word on its line, near enough to be a key. -/
theorem isShortKey_written {k : String} (h : isShortKey k = true) (indent : Nat) :
    styleOf k ≠ .literal ∧ (∀ c ∈ writtenString indent k, isBreak c = false) ∧
      octetCount (writtenString indent k) ≤ 1024 := by
  obtain ⟨hbreak, hsize⟩ := Bool.and_eq_true_iff.mp h
  rw [Bool.not_eq_true', List.any_eq_false] at hbreak
  have hline : ∀ c ∈ k.toList, isBreak c = false := fun c hc => Bool.eq_false_iff.mpr (hbreak c hc)
  have hstyle : styleOf k ≠ .literal := by
    have hfeed : k.toList.contains '\n' = false := by
      refine Bool.eq_false_iff.mpr fun hmem => ?_
      have := hline _ (List.contains_iff_mem.mp hmem)
      rw [isBreak_feed] at this
      cases this
    rw [styleOf]
    simp only [hfeed]
    split
    · next hcontra => cases hcontra
    · split
      · exact nofun
      · split <;> exact nofun
  have hoctets : octetCount k.toList ≤ 128 := by
    rw [← utf8ByteSize_ofList, String.ofList_toList]
    exact of_decide_eq_true hsize
  obtain ⟨hwritten, hcount⟩ := octetCount_writtenAs hstyle indent hline
  rw [writtenString_eq]
  exact ⟨hstyle, hwritten, by omega⟩

/-- **A short key is remembered up to its colon.** -/
theorem reaches_shortKey {k : String} (hshort : isShortKey k = true) {indent : Nat}
    (hindent : 0 < indent) (hopen : ∀ i, is.head? = some i → i ≤ p.column)
    (hfuel : k.toList.length < fuel) {y : List Char} (hy : atGap y = true) :
    ∃ q : Position, q.line = p.line ∧ p.column ≤ q.column ∧
      Reaches (stand fuel p is none true T (writtenString indent k ++ ':' :: y))
        (stand fuel q is (some ⟨is.head? == some p.column, T.length, p⟩) false
          (.scalar (styleOf k) k :: T) (':' :: y)) ∧ q.index ≤ p.index + 1024 := by
  obtain ⟨hstyle, hline, hoctets⟩ := isShortKey_written hshort indent
  have hstand := canStand_styleOf k
  rw [writtenString_eq] at hline hoctets ⊢
  have hq := Position.after_line p (':' :: y) hline
  -- the colon is on the line of the key, and at most 1024 octets behind its start
  have hfresh : freshKey (p.after (':' :: y) (writtenAs indent (styleOf k) k.toList))
      (some ⟨is.head? == some p.column, T.length, p⟩)
        = some (some ⟨is.head? == some p.column, T.length, p⟩) := by
    rw [hq]
    exact freshKey_of_near (Nat.le_refl _) (Nat.add_le_add_left hoctets _)
  have hact : (stand fuel p is none true T
      (writtenAs indent (styleOf k) k.toList ++ ':' :: y)).act
      = some (stand fuel (p.after (':' :: y) (writtenAs indent (styleOf k) k.toList)) is
          (some ⟨is.head? == some p.column, T.length, p⟩) false
          (.scalar (styleOf k) k :: T) (':' :: y)) := by
    rw [show Token.scalar (styleOf k) k = .scalar (styleOf k) (String.ofList k.toList) by
      rw [String.ofList_toList]]
    generalize styleOf k = style at hstyle hstand hfresh
    cases style with
    | literal => exact absurd rfl hstyle
    | folded => exact hstand.elim
    | singleQuoted => exact act_quoted (.inl rfl) hstand hindent nofun hfuel hfresh
    | doubleQuoted => exact act_quoted (.inr rfl) hstand hindent nofun hfuel hfresh
    | plain =>
      exact act_plain (take_plain hstand.2 hstand.1 (noMark_colon y))
        (readPlain_of_safe (plainStop_colon _ hy) hstand.1 hfuel) hfresh
  have hx : AtToken (':' :: y) := atToken_char (by decide) y
  have hcolumn : p.column ≤ (p.after (':' :: y) (writtenAs indent (styleOf k) k.toList)).column := by
    rw [hq]
    exact Nat.le_add_right _ _
  have hland : (stand fuel (p.after (':' :: y) (writtenAs indent (styleOf k) k.toList)) is
      (some ⟨is.head? == some p.column, T.length, p⟩) false (.scalar (styleOf k) k :: T)
      ([] ++ ':' :: y)).land = _ :=
    land_stand hx .nothing hfresh (deeper_eq_zero fun i hi => Nat.le_trans (hopen i hi) hcolumn)
  refine ⟨_, ?_, hcolumn, .one isOpen_stand isOpen_stand hact hland ?_, ?_⟩
  · rw [hq]
  · have hpos := List.length_pos_iff.mpr (writtenAs_ne_nil indent hstand)
    simp only [stand, List.length_append, List.length_cons]
    omega
  · rw [hq]
    exact Nat.add_le_add_left hoctets _

end

end Layout

end AccessFilter.Yaml
