import AccessFilter.Proofs.Sql.Rendered
import Mathlib.Algebra.Ring.Parity

/-!
# Parentheses in a rendered predicate

Whether a negated predicate needs parentheses is decided without looking at its text. The text of a
predicate starts with a parenthesis exactly if it is a group of several parts, and this parenthesis is
matched by the last character, so a negation adds parentheses where there are none, and only there.

* `Place.after`, `Balanced`   parentheses are counted outside of quoted names;
* `Matched`, `Enclosed`       the parenthesis that matches the first one, and that it is the last;
* `EveryNot`                  what is so of each NOT outside of quoted names;
* `Regular`                   balanced, and each NOT has its operand or belongs to a null test;
* `regular_render`            the text of a predicate is regular;
* `render_parentheses`        when it stands in parentheses, and what follows a NOT.
-/

namespace AccessFilter

namespace Sql

/-! ## balanced texts -/

/-- A place in a text: within quotes or not, and how many parentheses are open. -/
structure Place where
  quoted : Bool
  depth : Nat

namespace Place

/-- The start of a text. -/
def start : Place := ⟨false, 0⟩

/-- The place behind a character, unless it closes a parenthesis that is not open. A doubled quote in
a name leaves the name and enters it again. -/
def next (p : Place) (c : Char) : Option Place :=
  if c = '"' then some ⟨!p.quoted, p.depth⟩
  else if p.quoted then some p
  else if c = '(' then some ⟨false, p.depth + 1⟩
  else if c = ')' then if p.depth = 0 then none else some ⟨false, p.depth - 1⟩
  else some p

/-- The place behind a text. -/
def after (p : Place) : List Char → Option Place
  | [] => some p
  | c :: cs => (p.next c).bind fun q => q.after cs

/-- The same place within further parentheses. -/
def within (k : Nat) (p : Place) : Place := ⟨p.quoted, p.depth + k⟩

theorem after_cons (p : Place) (c : Char) (cs : List Char) :
    p.after (c :: cs) = (p.next c).bind fun q => q.after cs := rfl

theorem after_append (p : Place) (cs ds : List Char) :
    p.after (cs ++ ds) = (p.after cs).bind fun q => q.after ds := by
  induction cs generalizing p with
  | nil => rfl
  | cons c cs ih =>
    rw [List.cons_append, after_cons, after_cons]
    cases p.next c with
    | none => rfl
    | some q => exact ih q

theorem next_within {p q : Place} {c : Char} (k : Nat) (h : p.next c = some q) :
    (p.within k).next c = some (q.within k) := by
  obtain ⟨quoted, depth⟩ := p
  unfold next at h ⊢
  by_cases hquote : c = '"'
  · rw [if_pos hquote] at h ⊢
    cases h
    rfl
  rw [if_neg hquote] at h ⊢
  by_cases hquoted : quoted = true
  · rw [if_pos hquoted] at h
    cases h
    exact if_pos hquoted
  rw [if_neg hquoted] at h
  rw [if_neg (show ¬ (within k ⟨quoted, depth⟩).quoted = true from hquoted)]
  by_cases hopen : c = '('
  · rw [if_pos hopen] at h ⊢
    cases h
    simp [within, Nat.add_right_comm]
  rw [if_neg hopen] at h ⊢
  by_cases hclose : c = ')'
  · rw [if_pos hclose] at h ⊢
    cases depth with
    | zero => cases h
    | succ depth =>
      cases h
      simp [within, Nat.add_right_comm]
  · rw [if_neg hclose] at h ⊢
    cases h
    rfl

theorem after_within {p q : Place} {cs : List Char} (k : Nat) (h : p.after cs = some q) :
    (p.within k).after cs = some (q.within k) := by
  induction cs generalizing p with
  | nil =>
    cases h
    rfl
  | cons c cs ih =>
    obtain ⟨r, hr, hq⟩ := Option.bind_eq_some_iff.mp h
    rw [after_cons, next_within k hr]
    exact ih hq

end Place

/-- Outside of quoted names every parenthesis is closed, and only such are as were opened. -/
def Balanced (cs : List Char) : Prop := Place.start.after cs = some Place.start

/-- The parenthesis that a text starts with is matched behind `inside`, and `rest` follows. -/
def Matched (text inside rest : List Char) : Prop :=
  text = '(' :: inside ++ ')' :: rest ∧ Balanced inside

/-- A text in parentheses: its first character is one, and its last the one that matches it. -/
def Enclosed (text : List Char) : Prop := ∃ inside, Matched text inside []

namespace Balanced

variable {cs ds : List Char}

theorem after_eq (h : Balanced cs) (depth : Nat) :
    Place.after ⟨false, depth⟩ cs = some ⟨false, depth⟩ := by
  have hdeep := Place.after_within depth h
  simpa [Place.within, Place.start] using hdeep

theorem append (h : Balanced cs) (h' : Balanced ds) : Balanced (cs ++ ds) := by
  unfold Balanced at *
  rw [Place.after_append, h]
  exact h'

theorem enclose (h : Balanced cs) : Balanced ('(' :: cs ++ [')']) := by
  show (Place.after ⟨false, 1⟩ (cs ++ [')'])) = _
  rw [Place.after_append, h.after_eq]
  rfl

theorem of_plain (h : cs.all (fun c => c != '"' && c != '(' && c != ')') = true) :
    Balanced cs := by
  induction cs with
  | nil => rfl
  | cons c cs ih =>
    simp only [List.all_cons, Bool.and_eq_true, bne_iff_ne] at h
    obtain ⟨⟨⟨hquote, hopen⟩, hclose⟩, hcs⟩ := h
    have hnext : Place.start.next c = some Place.start := by
      simp [Place.next, Place.start, hquote, hopen, hclose]
    show (Place.start.next c).bind _ = _
    rw [hnext]
    exact ih (by simpa using hcs)

/-- Behind a balanced text no further parenthesis can be closed. -/
theorem not_closing (h : Balanced cs) (ds : List Char) : ¬ Balanced (cs ++ ')' :: ds) := by
  intro h'
  unfold Balanced at *
  rw [Place.after_append, h] at h'
  cases h'

end Balanced

/-- There is only one parenthesis that matches. -/
theorem Matched.unique {text inside rest inside' rest' : List Char} (h : Matched text inside rest)
    (h' : Matched text inside' rest') : inside = inside' ∧ rest = rest' := by
  obtain ⟨rfl, hb⟩ := h
  obtain ⟨e, hb'⟩ := h'
  -- the longer of the two would go on behind a parenthesis that it does not open
  rcases List.append_eq_append_iff.mp (List.cons.inj e).2 with ⟨a, rfl, hrest⟩ | ⟨a, rfl, hrest⟩
  · cases a with
    | nil => exact ⟨(List.append_nil _).symm, (List.cons.inj hrest).2⟩
    | cons c a =>
      obtain ⟨rfl, -⟩ := List.cons.inj hrest
      exact absurd hb' (hb.not_closing a)
  · cases a with
    | nil => exact ⟨List.append_nil _, (List.cons.inj hrest).2.symm⟩
    | cons c a =>
      obtain ⟨rfl, -⟩ := List.cons.inj hrest
      exact absurd hb (hb'.not_closing a)

/-! ## places outside of quoted names -/

/-- Behind such a text no quoted name is open. -/
def IsOutside (before : List Char) : Prop := Even (before.count '"')

theorem isOutside_append {cs ds : List Char} (h : IsOutside cs) :
    IsOutside (cs ++ ds) ↔ IsOutside ds := by
  unfold IsOutside at *
  rw [List.count_append, Nat.even_add]
  exact ⟨fun both => both.mp h, iff_of_true h⟩

theorem isOutside_cons {c : Char} (hc : c ≠ '"') (cs : List Char) :
    IsOutside (c :: cs) ↔ IsOutside cs := by
  unfold IsOutside
  rw [List.count_cons_of_ne hc]

theorem isOutside_quote (cs : List Char) : IsOutside ('"' :: cs) ↔ ¬ IsOutside cs := by
  unfold IsOutside
  rw [List.count_cons_self, Nat.even_add_one]

theorem Place.next_quoted {p q : Place} {c : Char} (h : p.next c = some q) :
    q.quoted = if c = '"' then !p.quoted else p.quoted := by
  unfold next at h
  split_ifs at h ⊢ with hquote hquoted
  all_goals cases h
  all_goals simp_all

/-- Quotes are balanced too. -/
theorem Place.quoted_after {p q : Place} {cs : List Char} (h : p.after cs = some q) :
    q.quoted = p.quoted ↔ IsOutside cs := by
  induction cs generalizing p with
  | nil =>
    cases h
    exact iff_of_true rfl Even.zero
  | cons c cs ih =>
    obtain ⟨r, hr, hq⟩ := Option.bind_eq_some_iff.mp h
    have hcs := ih hq
    have hquoted := next_quoted hr
    by_cases hc : c = '"'
    · subst hc
      rw [if_pos rfl] at hquoted
      rw [isOutside_quote, ← hcs, hquoted]
      cases q.quoted <;> cases p.quoted <;> decide
    · rw [if_neg hc] at hquoted
      rw [isOutside_cons hc, ← hcs, hquoted]

theorem Balanced.isOutside {cs : List Char} (h : Balanced cs) : IsOutside cs :=
  (Place.quoted_after h).mp rfl

/-! ## negations -/

/-- The text goes on with one blank and an operand in parentheses, in a single pair of them. -/
def NegatesOperand (behind : List Char) : Prop :=
  ∃ operand inside rest, behind = ' ' :: operand ∧ Matched operand inside rest ∧ ¬ Enclosed inside

/-- The place is that of the middle word of `IS NOT NULL`. -/
def InNullTest (before behind : List Char) : Prop :=
  " IS ".toList <:+ before ∧ " NULL".toList <+: behind

/-- Each NOT of a text that stands outside of quoted names has `P` of what stands before it and
behind it. -/
def EveryNot (P : List Char → List Char → Prop) (text : List Char) : Prop :=
  ∀ before behind, text = before ++ "NOT".toList ++ behind → IsOutside before → P before behind

/-- A NOT negates an operand in parentheses or belongs to a null test. -/
def Negation (before behind : List Char) : Prop :=
  NegatesOperand behind ∨ InNullTest before behind

theorem Negation.append_left {before behind : List Char} (h : Negation before behind)
    (cs : List Char) : Negation (cs ++ before) behind := by
  rcases h with h | ⟨his, hnull⟩
  · exact .inl h
  · exact .inr ⟨his.trans (List.suffix_append cs before), hnull⟩

theorem Negation.append_right {before behind : List Char} (h : Negation before behind)
    (cs : List Char) : Negation before (behind ++ cs) := by
  rcases h with ⟨operand, inside, rest, rfl, ⟨rfl, hinside⟩, hsingle⟩ | ⟨his, hnull⟩
  · refine .inl ⟨_, inside, rest ++ cs, rfl, ⟨?_, hinside⟩, hsingle⟩
    simp
  · exact .inr ⟨his, hnull.trans (List.prefix_append behind cs)⟩

namespace EveryNot

variable {cs ds : List Char}

/-- Texts may follow each other, unless a NOT could arise where they meet. -/
theorem append (h : EveryNot Negation cs) (hcs : IsOutside cs) (h' : EveryNot Negation ds)
    (hmeet : ∀ c ∈ ds.head?, c ≠ 'O' ∧ c ≠ 'T') : EveryNot Negation (cs ++ ds) := by
  intro before behind e hout
  rw [List.append_assoc] at e
  rcases List.append_eq_append_iff.mp e with ⟨a, rfl, hds⟩ | ⟨b, rfl, hbehind⟩
  · have hout' := (isOutside_append hcs).mp hout
    exact (h' a behind (by rw [hds, List.append_assoc]) hout').append_left cs
  · have hnot : 'N' :: 'O' :: 'T' :: behind = b ++ ds := hbehind
    rcases b with _ | ⟨n, _ | ⟨o, _ | ⟨t, b⟩⟩⟩
    · have hempty := h' [] behind hnot.symm Even.zero
      rw [← List.append_nil before]
      exact hempty.append_left before
    · simp only [List.cons_append, List.nil_append, List.cons.injEq] at hnot
      obtain ⟨-, rfl⟩ := hnot
      exact absurd rfl (hmeet 'O' rfl).1
    · simp only [List.cons_append, List.nil_append, List.cons.injEq] at hnot
      obtain ⟨-, -, rfl⟩ := hnot
      exact absurd rfl (hmeet 'T' rfl).2
    · simp only [List.cons_append, List.cons.injEq] at hnot
      obtain ⟨rfl, rfl, rfl, rfl⟩ := hnot
      have hcs : before ++ 'N' :: 'O' :: 'T' :: b = before ++ "NOT".toList ++ b := by
        rw [List.append_assoc]
        rfl
      exact (h before b hcs hout).append_right ds

/-- A character may stand in front, also one that starts a NOT with an operand. -/
theorem cons {c : Char} (hc : c ≠ '"') (h : EveryNot Negation ds)
    (hfirst : ∀ behind, c :: ds = "NOT".toList ++ behind → NegatesOperand behind) :
    EveryNot Negation (c :: ds) := by
  intro before behind e hout
  cases before with
  | nil => exact .inl (hfirst behind e)
  | cons d before =>
    obtain ⟨hd, hds⟩ := List.cons.inj e
    subst hd
    have hout' := (isOutside_cons hc before).mp hout
    exact (h before behind hds hout').append_left [c]

theorem cons_of_ne {c : Char} (hquote : c ≠ '"') (hn : c ≠ 'N') (h : EveryNot Negation ds) :
    EveryNot Negation (c :: ds) :=
  h.cons hquote fun _ e => absurd (List.cons.inj e).1 hn

/-- A text without NOT. -/
theorem of_absent (h : ¬ "NOT".toList <:+: cs) : EveryNot Negation cs :=
  fun before behind e _ => absurd ⟨before, behind, e.symm⟩ h

end EveryNot

/-! ## regular texts -/

/-- Parentheses are balanced, and each NOT negates an operand or belongs to a null test. -/
structure Regular (text : List Char) : Prop where
  balanced : Balanced text
  negations : EveryNot Negation text

namespace Regular

variable {cs ds : List Char}

theorem append (h : Regular cs) (h' : Regular ds) (hmeet : ∀ c ∈ ds.head?, c ≠ 'O' ∧ c ≠ 'T') :
    Regular (cs ++ ds) :=
  ⟨h.balanced.append h'.balanced, h.negations.append h.balanced.isOutside h'.negations hmeet⟩

/-- A text without quotes, parentheses and NOT. -/
theorem word (hplain : cs.all (fun c => c != '"' && c != '(' && c != ')') = true)
    (hnot : ¬ "NOT".toList <:+: cs) : Regular cs :=
  ⟨Balanced.of_plain hplain, .of_absent hnot⟩

theorem append_blank (h : Regular cs) (h' : Regular ds) : Regular (cs ++ ' ' :: ds) := by
  have hblank : Balanced [' '] := rfl
  have hrest : Regular (' ' :: ds) :=
    ⟨hblank.append h'.balanced, h'.negations.cons_of_ne (by decide) (by decide)⟩
  exact h.append hrest (by simp)

theorem enclose (h : Regular cs) : Regular ('(' :: cs ++ [')']) := by
  have hclose : EveryNot Negation [')'] := .of_absent (by decide)
  have hinside := h.negations.append h.balanced.isOutside hclose (by simp)
  exact ⟨h.balanced.enclose, hinside.cons_of_ne (by decide) (by decide)⟩

theorem negate {operand inside : List Char} (h : Regular operand)
    (hmatched : Matched operand inside []) (hsingle : ¬ Enclosed inside) :
    Regular ("NOT ".toList ++ operand) := by
  have hword : Balanced "NOT ".toList := rfl
  have hout : IsOutside "OT ".toList := Balanced.isOutside rfl
  have hrest : EveryNot Negation ("OT ".toList ++ operand) := by
    refine EveryNot.append (.of_absent (by decide)) hout h.negations ?_
    rw [hmatched.1]
    simp
  refine ⟨hword.append h.balanced, hrest.cons (by decide) fun behind e => ?_⟩
  have hbehind : 'N' :: 'O' :: 'T' :: ' ' :: operand = 'N' :: 'O' :: 'T' :: behind := e
  cases hbehind
  exact ⟨operand, inside, [], rfl, hmatched, hsingle⟩

/-! ### the pieces of a rendered predicate -/

/-- Within quotes an odd number of quotes stands before every character of a name. -/
theorem isOutside_body {name before behind : List Char}
    (h : name.flatMap quoteChar ++ ['"'] = before ++ 'N' :: behind) : IsOutside before := by
  induction name generalizing before with
  | nil =>
    rcases before with _ | ⟨c, before⟩
    · cases h
    · simp at h
  | cons c name ih =>
    rw [List.flatMap_cons, List.append_assoc] at h
    by_cases hc : c = '"'
    · subst hc
      have hdouble : '"' :: '"' :: (name.flatMap quoteChar ++ ['"']) = before ++ 'N' :: behind := h
      rcases before with _ | ⟨d, _ | ⟨e, before⟩⟩
      · cases hdouble
      · cases hdouble
      · simp only [List.cons_append, List.cons.injEq] at hdouble
        obtain ⟨rfl, rfl, hrest⟩ := hdouble
        rw [isOutside_quote, isOutside_quote, not_not]
        exact ih hrest
    · have hsingle : c :: (name.flatMap quoteChar ++ ['"']) = before ++ 'N' :: behind := by
        rwa [quoteChar, if_neg hc] at h
      rcases before with _ | ⟨d, before⟩
      · exact Even.zero
      · simp only [List.cons_append, List.cons.injEq] at hsingle
        obtain ⟨rfl, hrest⟩ := hsingle
        rw [isOutside_cons hc]
        exact ih hrest

theorem after_body (name : List Char) :
    Place.after ⟨true, 0⟩ (name.flatMap quoteChar) = some ⟨true, 0⟩ := by
  induction name with
  | nil => rfl
  | cons c name ih =>
    rw [List.flatMap_cons, Place.after_append]
    have hchar : Place.after ⟨true, 0⟩ (quoteChar c) = some ⟨true, 0⟩ := by
      by_cases hc : c = '"'
      · subst hc
        rfl
      · rw [quoteChar, if_neg hc, Place.after_cons, Place.next, if_neg hc]
        rfl
    rw [hchar]
    exact ih

theorem quoted (name : List Char) : Regular (quoteChars name) := by
  constructor
  · show Place.after ⟨true, 0⟩ (name.flatMap quoteChar ++ ['"']) = _
    rw [Place.after_append, after_body]
    rfl
  · intro before behind h hout
    rw [List.append_assoc] at h
    cases before with
    | nil => cases h
    | cons c before =>
      obtain ⟨hc, hbody⟩ := List.cons.inj h
      subst hc
      exact absurd (isOutside_body hbody) ((isOutside_quote before).mp hout)

theorem column (c : Column) : Regular c.chars := by
  have hname := quoted c.name.toList
  have hdot : Balanced ['.'] := rfl
  have hrest : Regular ('.' :: quoteChars c.name.toList) :=
    ⟨hdot.append hname.balanced, hname.negations.cons_of_ne (by decide) (by decide)⟩
  exact (quoted c.table.toList).append hrest (by simp)

/-- The middle word of a negated null test is the only NOT there. -/
theorem not_null : Regular " IS NOT NULL".toList := by
  refine ⟨rfl, fun before behind h _ => .inr ?_⟩
  have hplace : ∀ n < 13, "NOT".toList <+: " IS NOT NULL".toList.drop n → n = 4 := by decide
  have hlength : " IS NOT NULL".toList.length = (before ++ "NOT".toList ++ behind).length :=
    congrArg List.length h
  have hfour : before.length = 4 := by
    refine hplace _ (by simp at hlength; omega) ⟨behind, ?_⟩
    rw [h, List.append_assoc, List.drop_left]
  have hbefore : " IS NOT NULL".toList.take 4 = before := by
    rw [h, List.append_assoc, ← hfour, List.take_left]
  have hbehind : " IS NOT NULL".toList.drop 7 = behind := by
    rw [h]
    exact List.drop_left' (by rw [List.length_append, hfour]; rfl)
  subst hbefore hbehind
  exact ⟨List.suffix_refl _, List.prefix_refl _⟩

theorem placeholder (style : Placeholder) (k : Nat) : Regular (style.chars k) := by
  cases style with
  | question =>
    show Regular ['?']
    exact word (by decide) (by decide)
  | numbered =>
    have hdigit : ∀ c ∈ Nat.toDigits 10 k, c.isDigit = true :=
      fun c hc => Nat.isDigit_of_mem_toDigits (by decide) (by decide) hc
    refine word (List.all_eq_true.mpr fun c hc => ?_) fun hnot => ?_
    · rcases List.mem_cons.mp hc with rfl | hc
      · decide
      · have hd := hdigit c hc
        simp only [Bool.and_eq_true, bne_iff_ne]
        refine ⟨⟨?_, ?_⟩, ?_⟩ <;> rintro rfl <;> cases hd
    · have hn : 'N' ∈ Placeholder.numbered.chars k := hnot.subset (by decide)
      rcases List.mem_cons.mp hn with hn | hn
      · cases hn
      · cases hdigit 'N' hn

theorem placeholders (style : Placeholder) (n : Nat) : ∀ bound, Regular
    (Predicate.joinChars ", ".toList (Predicate.placeholders style bound n)) := by
  induction n with
  | zero =>
    intro _
    show Regular []
    exact word (by decide) (by decide)
  | succ n ih =>
    intro bound
    have hrest := ih (bound + 1)
    rw [placeholders_cons]
    cases n with
    | zero => exact placeholder style (bound + 1)
    | succ n =>
      rw [placeholders_cons] at hrest ⊢
      have hcomma : Regular [','] := word (by decide) (by decide)
      have hfirst := (placeholder style (bound + 1)).append hcomma (by simp)
      have hall := hfirst.append_blank hrest
      rw [joinChars_cons_cons, List.append_assoc]
      rwa [List.append_assoc] at hall

theorem keyword (k : Keyword) (hk : k ≠ .not) : Regular k.chars := by
  cases k
  case not => exact absurd rfl hk
  all_goals exact word (by decide) (by decide)

end Regular

end Sql

/-! ## the text of a predicate -/

namespace Predicate

open Sql

/-- What is so of the text of a predicate: it is regular, and only a group stands in parentheses,
in a single pair of them. -/
structure Laid (p : Predicate) (text : List Char) : Prop where
  regular : Regular text
  grouped : p.isGrouped = true → ∃ inside, Matched text inside [] ∧ ¬ Enclosed inside
  bare : p.isGrouped = false → ∃ c cs, text = c :: cs ∧ c ≠ '('

namespace Laid

variable {p : Predicate} {text : List Char}

/-- The text of a predicate with more behind it does not stand in parentheses: those of the predicate
end before. -/
theorem not_enclosed_append (h : p.Laid text) {ds : List Char} (hds : ds ≠ []) :
    ¬ Enclosed (text ++ ds) := by
  rintro ⟨inside, hmatched⟩
  cases hg : p.isGrouped with
  | false =>
    obtain ⟨c, cs, rfl, hc⟩ := h.bare hg
    exact hc (List.cons.inj hmatched.1).1
  | true =>
    obtain ⟨inner, ⟨rfl, hinner⟩, -⟩ := h.grouped hg
    have hshort : Matched ('(' :: inner ++ [')'] ++ ds) inner ds := ⟨by simp, hinner⟩
    exact hds (hshort.unique hmatched).2

theorem not_enclosed (h : p.Laid text) (hg : p.isGrouped = false) : ¬ Enclosed text := by
  rintro ⟨inside, hmatched⟩
  obtain ⟨c, cs, rfl, hc⟩ := h.bare hg
  exact hc (List.cons.inj hmatched.1).1

theorem head?_eq (h : p.Laid text) : text.head? = some '(' ↔ p.isGrouped = true := by
  cases hg : p.isGrouped with
  | false =>
    obtain ⟨c, cs, rfl, hc⟩ := h.bare hg
    simpa using hc
  | true =>
    obtain ⟨inside, ⟨rfl, -⟩, -⟩ := h.grouped hg
    simp

end Laid

/-! ### groups -/

theorem regular_between {u v : List Char} (joiner : Keyword) (hjoiner : joiner ≠ .not)
    (hu : Regular u) (hv : Regular v) : Regular (u ++ between joiner ++ v) := by
  have hall := hu.append_blank ((Regular.keyword joiner hjoiner).append_blank hv)
  simpa [between] using hall

theorem regular_joined (joiner : Keyword) (hjoiner : joiner ≠ .not) {ps : List Predicate}
    {ts : List (List Char)} (h : List.Forall₂ Laid ps ts) :
    Regular (joinChars (between joiner) ts) := by
  induction h with
  | nil =>
    show Regular []
    exact .word (by decide) (by decide)
  | cons hp hps ih =>
    cases hps with
    | nil => exact hp.regular
    | cons hq hps => exact regular_between joiner hjoiner hp.regular ih

theorem laid_keyword (k : Keyword) (hk : k ≠ .not) {p : Predicate} (hp : p.isGrouped = false) :
    p.Laid k.chars :=
  ⟨.keyword k hk, fun hg => absurd (hp.symm.trans hg) Bool.false_ne_true,
    fun _ => by cases k <;> exact ⟨_, _, rfl, by decide⟩⟩

/-- A group is laid out as its only part or stands in parentheses, which no part of it spans. -/
theorem laid_group (make : List Predicate → Predicate) (joiner empty : Keyword)
    (hjoiner : joiner ≠ .not) (hempty : empty ≠ .not) {ps : List Predicate}
    (hnone : (make []).isGrouped = false) (hone : ∀ p, (make [p]).isGrouped = p.isGrouped)
    (hmany : ∀ p q ps, (make (p :: q :: ps)).isGrouped = true)
    {ts : List (List Char)} (h : List.Forall₂ Laid ps ts) :
    (make ps).Laid (groupChars (between joiner) empty.chars ts) := by
  have hjoined := regular_joined joiner hjoiner h
  cases h with
  | nil => exact laid_keyword empty hempty hnone
  | @cons p t ps ts hp hps =>
    cases hps with
    | nil =>
      refine ⟨hp.regular, fun hg => ?_, fun hg => ?_⟩
      · exact hp.grouped ((hone p).symm.trans hg)
      · exact hp.bare ((hone p).symm.trans hg)
    | @cons q u ps ts hq hps =>
      refine ⟨hjoined.enclose, fun _ => ?_, fun hg => ?_⟩
      · refine ⟨_, ⟨rfl, hjoined.balanced⟩, ?_⟩
        rw [joinChars_cons_cons, List.append_assoc]
        exact hp.not_enclosed_append (by simp [between])
      · rw [hmany] at hg
        cases hg

/-- A negation puts parentheses around what has none. -/
theorem laid_not {inner : Predicate} {text : List Char} (h : inner.Laid text) :
    (Predicate.not inner).Laid (if isGrouped inner then "NOT ".toList ++ text
      else "NOT (".toList ++ text ++ [')']) := by
  refine ⟨?_, nofun, fun _ => ?_⟩
  · split
    · next hg =>
      obtain ⟨inside, hmatched, hsingle⟩ := h.grouped hg
      exact h.regular.negate hmatched hsingle
    · next hg =>
      have hsingle := h.not_enclosed (eq_false_of_ne_true hg)
      exact h.regular.enclose.negate ⟨rfl, h.regular.balanced⟩ hsingle
  · split <;> exact ⟨'N', _, rfl, by decide⟩

/-- A test of a column does not start with a parenthesis. -/
theorem laid_test {p : Predicate} {c : Column} {rest : List Char} (hp : p.isGrouped = false)
    (h : Regular (c.chars ++ rest)) : p.Laid (c.chars ++ rest) := by
  refine ⟨h, fun hg => absurd (hp.symm.trans hg) Bool.false_ne_true, fun _ => ?_⟩
  have hquote : '"' ≠ '(' := by decide
  rw [Column.chars, quoteChars]
  exact ⟨'"', _, List.cons_append, hquote⟩

theorem laid_compare (style : Placeholder) (bound : Nat) (c : Column) (op : Comparison)
    (v : Value) : (compare c op v).Laid ((compare c op v).render style bound) := by
  have hop : Regular op.sql.toList := by cases op <;> exact .word (by decide) (by decide)
  have hall := (Regular.column c).append_blank
    (hop.append_blank (.placeholder style (bound + 1)))
  rw [render, List.append_assoc, List.cons_append]
  exact laid_test rfl hall

theorem laid_isNull (style : Placeholder) (bound : Nat) (c : Column) (negated : Bool) :
    (isNull c negated).Laid ((isNull c negated).render style bound) := by
  cases negated with
  | false =>
    have hall := (Regular.column c).append_blank
      ((Regular.keyword .is nofun).append_blank (.keyword .null nofun))
    rw [render]
    exact laid_test rfl hall
  | true =>
    rw [render]
    exact laid_test rfl ((Regular.column c).append .not_null (by simp))

theorem laid_inList (style : Placeholder) (bound : Nat) (c : Column) (vs : List Value) :
    (inList c vs).Laid ((inList c vs).render style bound) := by
  have hlist := (Regular.placeholders style vs.length bound).enclose
  have hall := (Regular.column c).append_blank ((Regular.keyword .member nofun).append_blank hlist)
  rw [render, List.append_assoc, List.append_assoc]
  exact laid_test rfl hall

variable (style : Placeholder)

mutual

/-- **The text of a predicate stands in parentheses exactly if it is a group.** -/
theorem laid_render : (p : Predicate) → (bound : Nat) → p.Laid (p.render style bound)
  | .const true, _ => by
    rw [render]
    exact laid_keyword .true nofun rfl
  | .const false, _ => by
    rw [render]
    exact laid_keyword .false nofun rfl
  | .compare c op v, bound => laid_compare style bound c op v
  | .isNull c negated, bound => laid_isNull style bound c negated
  | .inList c vs, bound => laid_inList style bound c vs
  | .and parts, bound => by
    rw [render]
    exact laid_group .and .and .true nofun nofun rfl (fun _ => rfl) (fun _ _ _ => rfl)
      (laid_renderAll parts bound)
  | .or parts, bound => by
    rw [render]
    exact laid_group .or .or .false nofun nofun rfl (fun _ => rfl) (fun _ _ _ => rfl)
      (laid_renderAll parts bound)
  | .not inner, bound => by
    rw [render]
    exact laid_not (laid_render inner bound)

theorem laid_renderAll : (ps : List Predicate) → (bound : Nat) →
    List.Forall₂ Laid ps (renderAll style bound ps)
  | [], _ => .nil
  | p :: ps, bound => .cons (laid_render p bound) (laid_renderAll ps _)

end

/-- **When the text of a predicate stands in parentheses, and what they enclose.** It starts with a
parenthesis exactly if it is a group, and then the last character is the one that matches. All
parentheses are balanced, and a NOT that is not the middle word of a negated null test is followed by
one blank and an operand in a single pair of parentheses. -/
theorem render_parentheses (bound : Nat) (p : Predicate) :
    let text := p.render style bound
    (p.isGrouped = true ↔ text.head? = some '(') ∧ (p.isGrouped = true → Enclosed text) ∧
      Balanced text ∧
      EveryNot (fun before behind => NegatesOperand behind ∨ InNullTest before behind) text := by
  intro text
  have laid : p.Laid text := laid_render style p bound
  refine ⟨laid.head?_eq.symm, fun hg => ?_, laid.regular.balanced, laid.regular.negations⟩
  obtain ⟨inside, hmatched, -⟩ := laid.grouped hg
  exact ⟨inside, hmatched⟩

/-- The NOT of a negated null test has no operand. -/
theorem not_negatesOperand_nullTest :
    ¬ EveryNot (fun _ behind => NegatesOperand behind)
      ((isNull ⟨"sites", "a"⟩ true).render .numbered 0) := by
  intro h
  have hout : IsOutside "\"sites\".\"a\" IS ".toList := Balanced.isOutside rfl
  obtain ⟨operand, inside, rest, hblank, ⟨rfl, -⟩, -⟩ := h _ " NULL".toList rfl hout
  cases hblank

end Predicate

end AccessFilter
