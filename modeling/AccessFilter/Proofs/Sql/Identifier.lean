import AccessFilter.Proofs.Sql.Token

/-!
# Quoted names cannot be left

A quote inside a quoted name is doubled, so the first quote that stands alone is the closing one. The
reader of quoted names goes by this rule only and knows nothing of how names are written.

* `readIdentifier`, `readColumn`   a quoted name, and a qualified one, in front of a text;
* `identifierBody_eq_some_iff`     what is read up to a quote is the name with its quotes doubled;
* `readColumn_eq_some_iff`         only a written column is read as this column;
* `Column.readColumn_quoted`       a written column is read back and nothing of what follows it.
-/

namespace AccessFilter

namespace Sql

/-! ## the reader -/

/-- The quoted name a text starts with, and what follows its closing quote. -/
def readIdentifier : List Char → Option (String × List Char)
  | '"' :: cs => (identifierBody cs).map fun r => (String.ofList r.1, r.2)
  | _ => none

/-- The qualified name a text starts with, and what follows: two quoted names with a dot between. -/
def readColumn (cs : List Char) : Option (Column × List Char) :=
  match readIdentifier cs with
  | some (table, '.' :: behind) => (readIdentifier behind).map fun r => (⟨table, r.1⟩, r.2)
  | _ => none

/-! ## what is read -/

/-- What is read up to a quote that stands alone is a name with its quotes doubled. -/
theorem eq_of_identifierBody {cs name rest : List Char}
    (h : identifierBody cs = some (name, rest)) :
    cs = name.flatMap quoteChar ++ '"' :: rest ∧ rest.head? ≠ some '"' := by
  induction cs using identifierBody.induct generalizing name with
  | case1 => cases h
  | case2 cs ih =>
    rw [identifierBody] at h
    obtain ⟨⟨inner, rest'⟩, hr, e⟩ := Option.map_eq_some_iff.mp h
    cases e
    obtain ⟨hcs, hrest⟩ := ih hr
    refine ⟨?_, hrest⟩
    show '"' :: '"' :: cs = '"' :: '"' :: (inner.flatMap quoteChar ++ '"' :: rest')
    rw [hcs]
  | case3 cs hsingle =>
    rw [identifierBody] at h
    · cases h
      refine ⟨rfl, fun hhead => ?_⟩
      obtain ⟨rest', hrest⟩ := List.head?_eq_some_iff.mp hhead
      exact hsingle rest' hrest
    · exact hsingle
  | case4 c cs hdouble hc ih =>
    rw [identifierBody] at h
    · obtain ⟨⟨inner, rest'⟩, hr, e⟩ := Option.map_eq_some_iff.mp h
      cases e
      obtain ⟨hcs, hrest⟩ := ih hr
      have hchar : quoteChar c = [c] := if_neg hc
      refine ⟨?_, hrest⟩
      rw [List.flatMap_cons, hchar, List.append_assoc, ← hcs]
      rfl
    · exact hdouble
    · exact hc

theorem identifierBody_eq_some_iff (cs name rest : List Char) :
    identifierBody cs = some (name, rest) ↔
      cs = name.flatMap quoteChar ++ '"' :: rest ∧ rest.head? ≠ some '"' := by
  refine ⟨eq_of_identifierBody, ?_⟩
  rintro ⟨rfl, hrest⟩
  exact identifierBody_quoted name rest hrest

theorem readIdentifier_eq_some_iff (cs : List Char) (name : String) (rest : List Char) :
    readIdentifier cs = some (name, rest) ↔
      cs = quoteChars name.toList ++ rest ∧ rest.head? ≠ some '"' := by
  have hwritten : quoteChars name.toList ++ rest
      = '"' :: (name.toList.flatMap quoteChar ++ '"' :: rest) := by
    rw [quoteChars, List.cons_append, List.cons_append, List.append_assoc]
    rfl
  rw [hwritten]
  constructor
  · intro h
    unfold readIdentifier at h
    split at h
    · obtain ⟨⟨inner, rest'⟩, hbody, e⟩ := Option.map_eq_some_iff.mp h
      cases e
      rw [String.toList_ofList]
      obtain ⟨hcs, hrest⟩ := (identifierBody_eq_some_iff _ _ _).mp hbody
      exact ⟨congrArg _ hcs, hrest⟩
    · cases h
  · rintro ⟨rfl, hrest⟩
    have hbody := (identifierBody_eq_some_iff _ name.toList rest).mpr ⟨rfl, hrest⟩
    show (identifierBody _).map _ = _
    rw [hbody, Option.map_some, String.ofList_toList]

/-- **Only a written column is read as this column**, and it is if no quote follows it. -/
theorem readColumn_eq_some_iff (cs : List Char) (c : Column) (rest : List Char) :
    readColumn cs = some (c, rest) ↔ cs = c.quoted.toList ++ rest ∧ rest.head? ≠ some '"' := by
  have hwritten : c.quoted.toList ++ rest
      = quoteChars c.table.toList ++ '.' :: (quoteChars c.name.toList ++ rest) := by
    rw [Column.quoted, String.toList_ofList, Column.chars, List.append_assoc]
    rfl
  rw [hwritten, readColumn]
  constructor
  · intro h
    split at h
    · next table behind htable =>
      obtain ⟨⟨name, rest'⟩, hname, e⟩ := Option.map_eq_some_iff.mp h
      cases e
      obtain ⟨hcs, -⟩ := (readIdentifier_eq_some_iff _ _ _).mp htable
      obtain ⟨hbehind, hrest⟩ := (readIdentifier_eq_some_iff _ _ _).mp hname
      exact ⟨hcs.trans (by rw [hbehind]), hrest⟩
    · cases h
  · rintro ⟨rfl, hrest⟩
    -- behind the name of the table stands the dot, so its closing quote stands alone
    have hdot : ('.' :: (quoteChars c.name.toList ++ rest)).head? ≠ some '"' := by simp
    have htable := (readIdentifier_eq_some_iff _ c.table _).mpr ⟨rfl, hdot⟩
    have hname := (readIdentifier_eq_some_iff _ c.name rest).mpr ⟨rfl, hrest⟩
    rw [htable]
    show (readIdentifier (quoteChars c.name.toList ++ rest)).map _ = _
    rw [hname]
    rfl

end Sql

/-- **Quoted names cannot be left.** Read from a text that starts with a written column, both names
come back, whatever they contain, and the reading stops where the text behind the column starts,
exactly if no quote stands there. So no two columns are written alike. -/
theorem Column.readColumn_quoted (c : Column) (rest : List Char) :
    (Sql.readColumn (c.quoted.toList ++ rest) = some (c, rest) ↔ rest.head? ≠ some '"') ∧
      ∀ d : Column, d.quoted = c.quoted ↔ d = c := by
  constructor
  · rw [Sql.readColumn_eq_some_iff]
    exact and_iff_right rfl
  · intro d
    refine ⟨fun h => ?_, congrArg Column.quoted⟩
    have readsBack : ∀ e : Column, Sql.readColumn (e.quoted.toList ++ []) = some (e, []) :=
      fun e => (Sql.readColumn_eq_some_iff _ e []).mpr ⟨rfl, nofun⟩
    have hd := readsBack d
    rw [h, readsBack c] at hd
    cases hd
    rfl

end AccessFilter
