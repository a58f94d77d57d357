import AccessFilter.Sql.Fragment

/-!
# The words of an SQL fragment

* `Word`, `Token`        quoted identifiers, punctuation, upper-case keywords, comparison signs; and
                         these together with placeholders;
* `identifierBody`       reads an identifier up to its closing quote, a quote inside being doubled;
* `firstToken`, `scan`   the first word of a text, and all its words, blanks between them left out;
* `Scans cs ts rest`     reading `cs` gives the words `ts` and then those of `rest`;
* `scans_column`, `scans_keyword`, `scans_comparison`, `scans_slot`   how the pieces of a rendered
                         predicate are read.
-/

namespace AccessFilter

namespace Sql

/-! ## words -/

inductive Keyword where
  | true
  | false
  | not
  | and
  | or
  | is
  | null
  | member
deriving DecidableEq

namespace Keyword

def chars : Keyword → List Char
  | .true => "TRUE".toList
  | .false => "FALSE".toList
  | .not => "NOT".toList
  | .and => "AND".toList
  | .or => "OR".toList
  | .is => "IS".toList
  | .null => "NULL".toList
  | .member => "IN".toList

def ofChars? (letters : List Char) : Option Keyword :=
  [.true, .false, .not, .and, .or, .is, .null, .member].find? fun k => k.chars == letters

theorem ofChars?_chars (k : Keyword) : ofChars? k.chars = some k := by
  cases k <;> rfl

end Keyword

def comparisonOf? (signs : List Char) : Option Comparison :=
  [.eq, .ne, .gt, .ge, .lt, .le].find? fun op => op.sql.toList == signs

theorem comparisonOf?_sql (op : Comparison) : comparisonOf? op.sql.toList = some op := by
  cases op <;> rfl

inductive Word where
  | identifier (name : String)
  | dot
  | opening
  | closing
  | comma
  | keyword (k : Keyword)
  | comparison (op : Comparison)

/-- A word, or a placeholder at which a `β` stands. -/
inductive Token (β : Type) where
  | word (w : Word)
  | slot (b : β)

def words {β : Type} (ws : List Word) : List (Token β) := ws.map .word

/-- What a placeholder stands for: the value with a number, or the next value. -/
inductive Mark where
  | numbered (k : Nat)
  | next

/-! ## reading words -/

/-- The characters of an identifier behind its opening quote, and what follows its closing one. -/
def identifierBody : List Char → Option (List Char × List Char)
  | [] => none
  | '"' :: '"' :: cs => (identifierBody cs).map fun r => ('"' :: r.1, r.2)
  | '"' :: cs => some ([], cs)
  | c :: cs => (identifierBody cs).map fun r => (c :: r.1, r.2)

/-- The word of a single character. -/
def punctuation? : Char → Option (Token Mark)
  | '.' => some (.word .dot)
  | '(' => some (.word .opening)
  | ')' => some (.word .closing)
  | ',' => some (.word .comma)
  | '?' => some (.slot .next)
  | _ => none

/-- Whether a character belongs to comparison signs. -/
def isSign (c : Char) : Bool := c == '=' || c == '<' || c == '>'

/-- The word a text starts with, and what follows it. -/
def firstToken : List Char → Option (Token Mark × List Char)
  | [] => none
  | c :: cs =>
    if c = '"' then (identifierBody cs).map fun r => (.word (.identifier (String.ofList r.1)), r.2)
    else if c = '$' then
      some (.slot (.numbered (Nat.ofDigitChars 10 (cs.takeWhile Char.isDigit) 0)),
        cs.dropWhile Char.isDigit)
    else if c.isAlpha then
      (Keyword.ofChars? (c :: cs.takeWhile Char.isAlpha)).map fun k =>
        (.word (.keyword k), cs.dropWhile Char.isAlpha)
    else if isSign c then
      (comparisonOf? (c :: cs.takeWhile isSign)).map fun op =>
        (.word (.comparison op), cs.dropWhile isSign)
    else (punctuation? c).map fun t => (t, cs)

theorem length_identifierBody {cs name rest : List Char}
    (h : identifierBody cs = some (name, rest)) : rest.length < cs.length := by
  induction cs using identifierBody.induct generalizing name rest with
  | case1 => cases h
  | case2 cs ih =>
    rw [identifierBody] at h
    obtain ⟨⟨n, r⟩, hr, e⟩ := Option.map_eq_some_iff.mp h
    cases e
    have := ih hr
    simp only [List.length_cons]
    omega
  | case3 cs _ =>
    rw [identifierBody] at h
    · cases h
      exact Nat.lt_succ_self _
    · assumption
  | case4 c cs _ _ ih =>
    rw [identifierBody] at h
    · obtain ⟨⟨n, r⟩, hr, e⟩ := Option.map_eq_some_iff.mp h
      cases e
      have := ih hr
      simp only [List.length_cons]
      omega
    · assumption
    · assumption

theorem length_firstToken {cs rest : List Char} {t : Token Mark}
    (h : firstToken cs = some (t, rest)) : rest.length < cs.length := by
  cases cs with
  | nil => cases h
  | cons c cs =>
    have drop : ∀ p : Char → Bool, (cs.dropWhile p).length < (c :: cs).length := fun p =>
      Nat.lt_succ_of_le (List.dropWhile_sublist p).length_le
    rw [firstToken] at h
    split at h
    · obtain ⟨⟨n, r⟩, hr, e⟩ := Option.map_eq_some_iff.mp h
      cases e
      exact Nat.lt_succ_of_lt (length_identifierBody hr)
    split at h
    · cases h
      exact drop _
    split at h
    · obtain ⟨k, _, e⟩ := Option.map_eq_some_iff.mp h
      cases e
      exact drop _
    split at h
    · obtain ⟨op, _, e⟩ := Option.map_eq_some_iff.mp h
      cases e
      exact drop _
    · obtain ⟨t', _, e⟩ := Option.map_eq_some_iff.mp h
      cases e
      exact Nat.lt_succ_self _

/-- The words of a text; blanks between them do not count. -/
def scan : List Char → Option (List (Token Mark))
  | [] => some []
  | c :: cs =>
    if c = ' ' then scan cs
    else
      match _h : firstToken (c :: cs) with
      | none => none
      | some (t, rest) => (scan rest).map (t :: ·)
termination_by cs => cs.length
decreasing_by
  · exact Nat.lt_succ_self _
  · exact length_firstToken _h

/-! ## reading a text piece by piece -/

/-- Reading `cs` gives the words `ts` and then those of `rest`. -/
def Scans (cs : List Char) (ts : List (Token Mark)) (rest : List Char) : Prop :=
  scan cs = (scan rest).map (ts ++ ·)

namespace Scans

theorem refl (cs : List Char) : Scans cs [] cs := by
  unfold Scans
  cases scan cs <;> rfl

theorem trans {cs ds es : List Char} {ts us : List (Token Mark)} (h : Scans cs ts ds)
    (h' : Scans ds us es) : Scans cs (ts ++ us) es := by
  unfold Scans at *
  rw [h, h']
  cases scan es with
  | none => rfl
  | some vs => simp [List.append_assoc]

theorem blank (cs : List Char) : Scans (' ' :: cs) [] cs := by
  show scan (' ' :: cs) = _
  rw [scan, if_pos rfl]
  exact refl cs

theorem first {cs rest : List Char} {t : Token Mark} (h : firstToken cs = some (t, rest)) :
    Scans cs [t] rest := by
  show scan cs = _
  cases cs with
  | nil => cases h
  | cons c cs =>
    have hc : c ≠ ' ' := by
      rintro rfl
      cases h
    rw [scan, if_neg hc]
    split
    · next hn => rw [hn] at h; cases h
    · next t' rest' hs =>
      rw [hs] at h
      cases h
      rfl

theorem scan_eq {cs : List Char} {ts : List (Token Mark)} (h : Scans cs ts []) :
    scan cs = some ts := by
  unfold Scans at h
  rw [h, scan, Option.map_some, List.append_nil]

end Scans

/-- The text goes on with a blank, a comma or a closing parenthesis, or it ends: no word before it
can go on. -/
def Stops (rest : List Char) : Prop := ∀ c ∈ rest.head?, c = ' ' ∨ c = ',' ∨ c = ')'

theorem Stops.takeWhile {p : Char → Bool} {rest : List Char} (h : Stops rest)
    (hp : p ' ' = false ∧ p ',' = false ∧ p ')' = false) (w : List Char) (hw : ∀ c ∈ w, p c) :
    (w ++ rest).takeWhile p = w ∧ (w ++ rest).dropWhile p = rest := by
  rw [List.takeWhile_append_of_pos hw, List.dropWhile_append_of_pos hw]
  cases rest with
  | nil => exact ⟨List.append_nil w, rfl⟩
  | cons c cs =>
    have hc : p c = false := by
      rcases h c rfl with rfl | rfl | rfl
      · exact hp.1
      · exact hp.2.1
      · exact hp.2.2
    rw [List.takeWhile_cons_of_neg (by simp [hc]), List.dropWhile_cons_of_neg (by simp [hc]),
      List.append_nil]
    exact ⟨rfl, rfl⟩

theorem stops_nil : Stops [] := nofun
theorem stops_blank (cs : List Char) : Stops (' ' :: cs) := fun _ h => .inl (Option.some.inj h).symm
theorem stops_comma (cs : List Char) : Stops (',' :: cs) :=
  fun _ h => .inr (.inl (Option.some.inj h).symm)
theorem stops_closing (cs : List Char) : Stops (')' :: cs) :=
  fun _ h => .inr (.inr (Option.some.inj h).symm)

/-! ## the pieces of a rendered predicate -/

/-- A quoted name is read back whatever characters it has, if no quote follows it. -/
theorem identifierBody_quoted (name rest : List Char) (h : rest.head? ≠ some '"') :
    identifierBody (name.flatMap quoteChar ++ '"' :: rest) = some (name, rest) := by
  induction name with
  | nil =>
    cases rest with
    | nil => rfl
    | cons c cs =>
      have hc : c ≠ '"' := fun e => h (congrArg some e)
      show identifierBody ('"' :: c :: cs) = _
      rw [identifierBody]
      intro _ e
      exact hc (List.cons.inj e).1
  | cons c name ih =>
    rw [List.flatMap_cons, List.append_assoc]
    by_cases hc : c = '"'
    · subst hc
      show identifierBody ('"' :: '"' :: (name.flatMap quoteChar ++ '"' :: rest)) = _
      rw [identifierBody, ih]
      rfl
    · rw [quoteChar, if_neg hc]
      show identifierBody (c :: (name.flatMap quoteChar ++ '"' :: rest)) = _
      rw [identifierBody, ih]
      · rfl
      · intro _ e _
        exact hc e
      · exact hc

theorem scans_identifier (name : String) (rest : List Char) (h : rest.head? ≠ some '"') :
    Scans (quoteChars name.toList ++ rest) (words [.identifier name]) rest := by
  apply Scans.first
  show firstToken ('"' :: (name.toList.flatMap quoteChar ++ ['"'] ++ rest)) = _
  rw [firstToken, if_pos rfl, List.append_assoc]
  show (identifierBody (name.toList.flatMap quoteChar ++ '"' :: rest)).map _ = _
  rw [identifierBody_quoted name.toList rest h, Option.map_some, String.ofList_toList]

theorem scans_column (c : Column) (rest : List Char) :
    Scans (c.chars ++ ' ' :: rest) (words [.identifier c.table, .dot, .identifier c.name])
      (' ' :: rest) := by
  rw [Column.chars, List.append_assoc]
  have name : Scans (quoteChars c.name.toList ++ ' ' :: rest) (words [.identifier c.name])
      (' ' :: rest) := scans_identifier c.name _ nofun
  have dot : Scans ('.' :: quoteChars c.name.toList ++ ' ' :: rest) (words [.dot]) _ :=
    Scans.first rfl
  have table : Scans _ (words [.identifier c.table])
      ('.' :: quoteChars c.name.toList ++ ' ' :: rest) := scans_identifier c.table _ nofun
  exact table.trans (dot.trans name)

theorem scans_keyword (k : Keyword) {rest : List Char} (h : Stops rest) :
    Scans (k.chars ++ rest) (words [.keyword k]) rest := by
  have hk : ∀ x ∈ k.chars, x.isAlpha = true := List.all_eq_true.mp (by cases k <;> rfl)
  obtain ⟨c, w, hw⟩ : ∃ c w, k.chars = c :: w := by cases k <;> exact ⟨_, _, rfl⟩
  rw [hw] at hk ⊢
  have hc : c.isAlpha = true := hk c List.mem_cons_self
  have hquote : c ≠ '"' := by rintro rfl; cases hc
  have hdollar : c ≠ '$' := by rintro rfl; cases hc
  obtain ⟨htake, hdrop⟩ := h.takeWhile (p := Char.isAlpha) (by decide) w
    fun x hx => hk x (List.mem_cons_of_mem c hx)
  apply Scans.first
  rw [List.cons_append, firstToken, if_neg hquote, if_neg hdollar, if_pos hc, htake, hdrop, ← hw,
    Keyword.ofChars?_chars, Option.map_some]

theorem scans_comparison (op : Comparison) (rest : List Char) :
    Scans (op.sql.toList ++ ' ' :: rest) (words [.comparison op]) (' ' :: rest) := by
  have hop : ∀ x ∈ op.sql.toList, isSign x = true := List.all_eq_true.mp (by cases op <;> rfl)
  obtain ⟨c, w, hw⟩ : ∃ c w, op.sql.toList = c :: w := by cases op <;> exact ⟨_, _, rfl⟩
  rw [hw] at hop ⊢
  have hc : isSign c = true := hop c List.mem_cons_self
  have hquote : c ≠ '"' := by rintro rfl; cases hc
  have hdollar : c ≠ '$' := by rintro rfl; cases hc
  have hletter : ¬ c.isAlpha = true := by
    simp only [isSign, Bool.or_eq_true, beq_iff_eq] at hc
    rcases hc with (rfl | rfl) | rfl <;> decide
  obtain ⟨htake, hdrop⟩ := (stops_blank rest).takeWhile (p := isSign) (by decide) w
    fun x hx => hop x (List.mem_cons_of_mem c hx)
  apply Scans.first
  rw [List.cons_append, firstToken, if_neg hquote, if_neg hdollar, if_neg hletter, if_pos hc,
    htake, hdrop, ← hw, comparisonOf?_sql, Option.map_some]

end Sql

namespace Placeholder

/-- What a placeholder of a style stands for. -/
def mark : Placeholder → Nat → Sql.Mark
  | .numbered, k => .numbered k
  | .question, _ => .next

end Placeholder

namespace Sql

theorem scans_slot (style : Placeholder) (k : Nat) {rest : List Char} (h : Stops rest) :
    Scans (style.chars k ++ rest) [.slot (style.mark k)] rest := by
  apply Scans.first
  cases style with
  | question => rfl
  | numbered =>
    have hdigits : ∀ c ∈ Nat.toDigits 10 k, c.isDigit = true :=
      fun c hc => Nat.isDigit_of_mem_toDigits (by decide) (by decide) hc
    obtain ⟨htake, hdrop⟩ := h.takeWhile (p := Char.isDigit) (by decide) _ hdigits
    show firstToken ('$' :: (Nat.toDigits 10 k ++ rest)) = _
    rw [firstToken, if_neg (by decide), if_pos rfl, htake, hdrop, Nat.ofDigitChars_ten_toDigits]
    rfl

end Sql

end AccessFilter
