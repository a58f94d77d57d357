import AccessFilter.Proofs.Sql.Rendered

/-!
# Placeholders and bound values in step

A text is cut into its characters and the numbered placeholders that stand outside of quoted
identifiers. Of a rendered predicate these placeholders are numbered from one on, one for each bound
value, and with question marks in their place the text is the one of the other style.

* `Predicate.leaves`, `ownValues`   the leaves from left to right, and the values a leaf has;
* `Piece`, `pieces`         a text cut up, its quoted identifiers being left whole;
* `Numbers bound cs ds n`   `cs` has the placeholders behind `bound` up to `bound + n`, in order, and
                            `ds` is `cs` with question marks for them;
* `Predicate.numbers_render`   so it is with the two texts of a predicate;
* `fragment_placeholders`   text and bound values of a fragment.
-/

namespace AccessFilter

open Sql

namespace Predicate

/-! ## leaves -/

mutual

def leaves : Predicate → List Predicate
  | .const b => [.const b]
  | .compare c op v => [.compare c op v]
  | .isNull c negated => [.isNull c negated]
  | .inList c vs => [.inList c vs]
  | .and parts => leavesAll parts
  | .or parts => leavesAll parts
  | .not inner => leaves inner

def leavesAll : List Predicate → List Predicate
  | [] => []
  | p :: ps => leaves p ++ leavesAll ps

end

def ownValues : Predicate → List Value
  | .compare _ _ v => [v]
  | .inList _ vs => vs
  | _ => []

mutual

theorem values_eq_flatMap : (p : Predicate) → p.values = p.leaves.flatMap ownValues
  | .const _ => rfl
  | .compare _ _ _ => rfl
  | .isNull _ _ => rfl
  | .inList _ _ => (List.append_nil _).symm
  | .and parts => by rw [values, leaves, valuesAll_eq_flatMap parts]
  | .or parts => by rw [values, leaves, valuesAll_eq_flatMap parts]
  | .not inner => by rw [values, leaves, values_eq_flatMap inner]

theorem valuesAll_eq_flatMap :
    (ps : List Predicate) → valuesAll ps = (leavesAll ps).flatMap ownValues
  | [] => rfl
  | p :: ps => by
    rw [valuesAll, leavesAll, List.flatMap_append, values_eq_flatMap p, valuesAll_eq_flatMap ps]

end

end Predicate

namespace Sql

/-! ## the pieces of a text -/

inductive Piece where
  | char (c : Char)
  | slot (digits : List Char)

namespace Piece

def written : Piece → List Char
  | .char c => [c]
  | .slot digits => '$' :: digits

/-- How a piece is written where placeholders have no number. -/
def unnumbered : Piece → List Char
  | .char c => [c]
  | .slot _ => ['?']

def digits? : Piece → Option (List Char)
  | .char _ => none
  | .slot digits => some digits

end Piece

/-- A text cut up, from a place on that is inside quotes or outside. A doubled quote inside goes out
and in again. -/
def pieces (quoted : Bool) : List Char → List Piece
  | [] => []
  | c :: cs =>
    if c = '"' then .char c :: pieces (!quoted) cs
    else if c = '$' ∧ quoted = false then
      .slot (cs.takeWhile Char.isDigit) :: pieces false (cs.dropWhile Char.isDigit)
    else .char c :: pieces quoted cs
termination_by cs => cs.length
decreasing_by
  · exact Nat.lt_succ_self _
  · exact Nat.lt_succ_of_le (List.dropWhile_sublist _).length_le
  · exact Nat.lt_succ_self _

theorem pieces_quote (quoted : Bool) (cs : List Char) :
    pieces quoted ('"' :: cs) = .char '"' :: pieces (!quoted) cs := by
  rw [pieces, if_pos rfl]

theorem pieces_char {quoted : Bool} {c : Char} (hc : c ≠ '"') (h : c ≠ '$' ∨ quoted = true)
    (cs : List Char) : pieces quoted (c :: cs) = .char c :: pieces quoted cs := by
  have hslot : ¬ (c = '$' ∧ quoted = false) := by
    rintro ⟨rfl, rfl⟩
    rcases h with h | h
    · exact h rfl
    · cases h
  rw [pieces, if_neg hc, if_neg hslot]

theorem pieces_slot (cs : List Char) :
    pieces false ('$' :: cs)
      = .slot (cs.takeWhile Char.isDigit) :: pieces false (cs.dropWhile Char.isDigit) := by
  have hquote : '$' ≠ '"' := by decide
  rw [pieces, if_neg hquote, if_pos ⟨rfl, rfl⟩]

/-- Cutting up loses nothing. -/
theorem flatMap_written_pieces (quoted : Bool) (cs : List Char) :
    (pieces quoted cs).flatMap Piece.written = cs := by
  induction quoted, cs using pieces.induct with
  | case1 quoted =>
    rw [pieces]
    rfl
  | case2 quoted cs ih => rw [pieces_quote, List.flatMap_cons, ih]; rfl
  | case3 quoted c cs hc h ih =>
    obtain ⟨rfl, rfl⟩ := h
    have hsplit := List.takeWhile_append_dropWhile (p := Char.isDigit) (l := cs)
    rw [pieces_slot, List.flatMap_cons, ih]
    show '$' :: (cs.takeWhile Char.isDigit ++ cs.dropWhile Char.isDigit) = '$' :: cs
    rw [hsplit]
  | case4 quoted c cs hc h ih =>
    rw [pieces, if_neg hc, if_neg h, List.flatMap_cons, ih]
    rfl

/-- Inside quotes nothing but a quote counts, and those of a name come in pairs. -/
theorem pieces_quoteChars (name rest : List Char) :
    pieces false (quoteChars name ++ rest) = (quoteChars name).map .char ++ pieces false rest := by
  -- a doubled quote leaves the name and enters it again
  have inside : ∀ name : List Char, pieces true (name.flatMap quoteChar ++ '"' :: rest)
      = (name.flatMap quoteChar ++ ['"']).map .char ++ pieces false rest := by
    intro name
    induction name with
    | nil => exact pieces_quote true rest
    | cons c name ih =>
      rw [List.flatMap_cons, List.append_assoc]
      by_cases hc : c = '"'
      · subst hc
        show pieces true ('"' :: '"' :: (name.flatMap quoteChar ++ '"' :: rest)) = _
        rw [pieces_quote, pieces_quote, Bool.not_true, Bool.not_false, ih]
        rfl
      · have hchar : quoteChar c = [c] := if_neg hc
        rw [hchar]
        show pieces true (c :: (name.flatMap quoteChar ++ '"' :: rest)) = _
        rw [pieces_char hc (.inr rfl), ih]
        rfl
  rw [quoteChars, List.cons_append, List.cons_append, pieces_quote, Bool.not_false,
    List.append_assoc]
  show _ :: pieces true (name.flatMap quoteChar ++ '"' :: rest) = _
  rw [inside]
  rfl

/-! ## texts with numbered placeholders -/

/-- The text has neither quotes nor placeholders. -/
def isPlain (w : List Char) : Bool := w.all fun c => c != '"' && c != '$'

/-- Cut up, `cs` has the placeholders of the `n` numbers behind `bound`, and `ds` is `cs` with
question marks for them. What follows must not go on with a digit. -/
def Numbers (bound : Nat) (cs ds : List Char) (n : Nat) : Prop :=
  ∃ ps, ps.filterMap Piece.digits? = (List.range' (bound + 1) n).map (Nat.toDigits 10) ∧
    ps.flatMap Piece.unnumbered = ds ∧
    ∀ rest, Stops rest → pieces false (cs ++ rest) = ps ++ pieces false rest

namespace Numbers

variable {bound n m : Nat} {cs ds cs' ds' : List Char}

theorem nil (bound : Nat) : Numbers bound [] [] 0 := ⟨[], rfl, rfl, fun _ _ => rfl⟩

/-- A text that is cut into its characters whatever follows may stand in front. -/
theorem chars_append {w : List Char}
    (hw : ∀ rest, pieces false (w ++ rest) = w.map .char ++ pieces false rest)
    (h : Numbers bound cs ds n) : Numbers bound (w ++ cs) (w ++ ds) n := by
  obtain ⟨ps, hdigits, htext, hpieces⟩ := h
  refine ⟨w.map .char ++ ps, ?_, ?_, fun rest hrest => ?_⟩
  · have hnone : (w.map Piece.char).filterMap Piece.digits? = [] := by
      rw [List.filterMap_map]
      exact List.filterMap_eq_nil_iff.mpr fun _ _ => rfl
    rw [List.filterMap_append, hnone, hdigits, List.nil_append]
  · have hsame : (w.map Piece.char).flatMap Piece.unnumbered = w := by
      rw [List.flatMap_map]
      exact List.flatMap_singleton' w
    rw [List.flatMap_append, hsame, htext]
  · rw [List.append_assoc, hw, hpieces rest hrest, List.append_assoc]

theorem plain_append {w : List Char} (hw : isPlain w = true)
    (h : Numbers bound cs ds n) : Numbers bound (w ++ cs) (w ++ ds) n := by
  refine chars_append (fun rest => ?_) h
  clear h
  induction w with
  | nil => rfl
  | cons c w ih =>
    rw [isPlain, List.all_cons, Bool.and_eq_true, Bool.and_eq_true, bne_iff_ne, bne_iff_ne] at hw
    obtain ⟨⟨hquote, hmark⟩, hw⟩ := hw
    rw [List.cons_append, pieces_char hquote (.inl hmark), ih hw]
    rfl

theorem column_append (c : Column) (h : Numbers bound cs ds n) :
    Numbers bound (c.chars ++ cs) (c.chars ++ ds) n := by
  refine chars_append (fun rest => ?_) h
  have hdot : '.' ≠ '"' := by decide
  rw [Column.chars, List.append_assoc, pieces_quoteChars, List.cons_append,
    pieces_char hdot (.inl (by decide)), pieces_quoteChars]
  simp

theorem append (h : Numbers bound cs ds n) (h' : Numbers (bound + n) cs' ds' m)
    (hstop : ∀ rest, Stops rest → Stops (cs' ++ rest)) :
    Numbers bound (cs ++ cs') (ds ++ ds') (n + m) := by
  obtain ⟨ps, hdigits, htext, hpieces⟩ := h
  obtain ⟨ps', hdigits', htext', hpieces'⟩ := h'
  refine ⟨ps ++ ps', ?_, ?_, fun rest hrest => ?_⟩
  · have hbound : bound + n + 1 = bound + 1 + n := by omega
    rw [List.filterMap_append, hdigits, hdigits', hbound, ← List.map_append,
      List.range'_append_1]
  · rw [List.flatMap_append, htext, htext']
  · rw [List.append_assoc, hpieces _ (hstop rest hrest), hpieces' rest hrest, List.append_assoc]

theorem slot (bound : Nat) : Numbers bound (Placeholder.numbered.chars (bound + 1))
    (Placeholder.question.chars (bound + 1)) 1 := by
  refine ⟨[.slot (Nat.toDigits 10 (bound + 1))], rfl, rfl, fun rest hrest => ?_⟩
  have hdigits : ∀ c ∈ Nat.toDigits 10 (bound + 1), c.isDigit = true :=
    fun c hc => Nat.isDigit_of_mem_toDigits (by decide) (by decide) hc
  obtain ⟨htake, hdrop⟩ := hrest.takeWhile (p := Char.isDigit) (by decide) _ hdigits
  show pieces false ('$' :: (Nat.toDigits 10 (bound + 1) ++ rest)) = _
  rw [pieces_slot, htake, hdrop]
  rfl

end Numbers

/-! ## the texts of a predicate -/

theorem numbers_placeholders (bound n : Nat) :
    Numbers bound
      (Predicate.joinChars ", ".toList (Predicate.placeholders .numbered bound n))
      (Predicate.joinChars ", ".toList (Predicate.placeholders .question bound n)) n := by
  induction n generalizing bound with
  | zero => exact .nil bound
  | succ n ih =>
    rw [placeholders_cons, placeholders_cons]
    cases n with
    | zero => exact .slot bound
    | succ n =>
      have hrest := ih (bound + 1)
      rw [placeholders_cons, placeholders_cons] at hrest ⊢
      rw [joinChars_cons_cons, joinChars_cons_cons, List.append_assoc, List.append_assoc]
      have hcomma := hrest.plain_append (w := ", ".toList) (by decide)
      have hall := (Numbers.slot bound).append hcomma fun _ _ => stops_comma _
      rwa [Nat.add_comm 1 (n + 1)] at hall

theorem isPlain_between (joiner : Keyword) : isPlain (between joiner) = true := by
  cases joiner <;> decide

theorem isPlain_keyword (k : Keyword) : isPlain k.chars = true := by
  cases k <;> decide

theorem Numbers.closing {bound n : Nat} {cs ds : List Char} (h : Numbers bound cs ds n) :
    Numbers bound (cs ++ [')']) (ds ++ [')']) n := by
  have hclose := (Numbers.nil (bound + n)).plain_append (w := [')']) (by decide)
  exact h.append hclose fun _ _ => stops_closing _

theorem Numbers.group (joiner empty : Keyword) {bound n : Nat} {ts us : List (List Char)}
    (hlen : ts.length = us.length)
    (h : Numbers bound (Predicate.joinChars (between joiner) ts)
      (Predicate.joinChars (between joiner) us) n) :
    Numbers bound (Predicate.groupChars (between joiner) empty.chars ts)
      (Predicate.groupChars (between joiner) empty.chars us) n := by
  rcases ts with _ | ⟨t, _ | ⟨t', ts⟩⟩ <;> rcases us with _ | ⟨u, _ | ⟨u', us⟩⟩ <;> try cases hlen
  · have hempty := h.plain_append (isPlain_keyword empty)
    simpa [Predicate.joinChars, Predicate.groupChars] using hempty
  · exact h
  · exact h.closing.plain_append (w := ['(']) (by decide)

end Sql

namespace Predicate

theorem length_renderAll_eq (style : Placeholder) (bound : Nat) (ps : List Predicate) :
    (renderAll style bound ps).length = ps.length := by
  induction ps generalizing bound with
  | nil => rfl
  | cons p ps ih => rw [renderAll, List.length_cons, ih, List.length_cons]

mutual

/-- **The two texts of a predicate differ in the placeholders only**, and the numbered ones count its
values. -/
theorem numbers_render : (p : Predicate) → (bound : Nat) →
    Numbers bound (p.render .numbered bound) (p.render .question bound) p.values.length
  | .const true, bound => (Numbers.nil bound).plain_append (w := "TRUE".toList) (by decide)
  | .const false, bound => (Numbers.nil bound).plain_append (w := "FALSE".toList) (by decide)
  | .compare c op v, bound => by
    have hop : isPlain (' ' :: (op.sql.toList ++ [' '])) = true := by cases op <;> decide
    have hall := ((Numbers.slot bound).plain_append hop).column_append c
    rw [render, render, values]
    simpa using hall
  | .isNull c false, bound =>
    ((Numbers.nil bound).plain_append (w := " IS NULL".toList) (by decide)).column_append c
  | .isNull c true, bound =>
    ((Numbers.nil bound).plain_append (w := " IS NOT NULL".toList) (by decide)).column_append c
  | .inList c vs, bound => by
    have hlist := (numbers_placeholders bound vs.length).closing
    have hall := (hlist.plain_append (w := " IN (".toList) (by decide)).column_append c
    rw [render, render, List.append_assoc, List.append_assoc, List.append_assoc, List.append_assoc]
    exact hall
  | .and parts, bound => by
    have hlen := (length_renderAll_eq .numbered bound parts).trans
      (length_renderAll_eq .question bound parts).symm
    exact (numbers_joined .and parts bound).group .and .true hlen
  | .or parts, bound => by
    have hlen := (length_renderAll_eq .numbered bound parts).trans
      (length_renderAll_eq .question bound parts).symm
    exact (numbers_joined .or parts bound).group .or .false hlen
  | .not inner, bound => by
    have hinner := numbers_render inner bound
    rw [render, render, values]
    split
    · exact hinner.plain_append (w := "NOT ".toList) (by decide)
    · have hall := hinner.closing.plain_append (w := "NOT (".toList) (by decide)
      simpa using hall

theorem numbers_joined (joiner : Keyword) : (ps : List Predicate) → (bound : Nat) →
    Numbers bound (joinChars (between joiner) (renderAll .numbered bound ps))
      (joinChars (between joiner) (renderAll .question bound ps)) (valuesAll ps).length
  | [], bound => .nil bound
  | [p], bound => by
    rw [valuesAll, valuesAll, List.append_nil]
    exact numbers_render p bound
  | p :: q :: ps, bound => by
    have hrest := numbers_joined joiner (q :: ps) (bound + p.values.length)
    have hall := (numbers_render p bound).append (hrest.plain_append (isPlain_between joiner))
      fun _ _ => stops_blank _
    rw [valuesAll, List.length_append, renderAll, renderAll, renderAll, renderAll]
    rw [renderAll, renderAll] at hall
    rw [joinChars_cons_cons, joinChars_cons_cons, List.append_assoc, List.append_assoc]
    exact hall

end

end Predicate

/-- **Placeholders and bound values stay in step.** The bound values are those of the leaves from
left to right, in both styles. Outside of quoted identifiers the numbered text has the placeholders
from one up to the number of bound values, in this order, and the text with question marks is the
numbered one with each of these replaced and all else as it is. -/
theorem fragment_placeholders (p : Predicate) :
    let numbered := p.fragment .numbered
    let question := p.fragment .question
    let cut := pieces false numbered.sql.toList
    numbered.params = p.leaves.flatMap Predicate.ownValues ∧
    question.params = numbered.params ∧
    cut.flatMap Piece.written = numbered.sql.toList ∧
    cut.filterMap Piece.digits?
      = (List.range' 1 numbered.params.length).map (Nat.toDigits 10) ∧
    question.sql.toList = cut.flatMap Piece.unnumbered := by
  intro numbered question cut
  obtain ⟨ps, hdigits, htext, hpieces⟩ := p.numbers_render 0
  have hcut : cut = ps := by
    have hall := hpieces [] stops_nil
    rw [List.append_nil, pieces, List.append_nil] at hall
    show pieces false (String.ofList (p.render .numbered 0)).toList = ps
    rw [String.toList_ofList, hall]
  refine ⟨p.values_eq_flatMap, rfl, flatMap_written_pieces _ _, ?_, ?_⟩
  · rw [hcut]
    exact hdigits
  · rw [hcut, htext]
    exact String.toList_ofList

end AccessFilter
