import AccessFilter.Proofs.Yaml.Layout.Value

/-!
# Whole texts

Every character of a written value may stand in a text, so no portion of the text cuts it off, and its
tokens are those of the value.

* `areShown_yamlChars`   the characters of a written value;
* `ofText_yaml`          the tokens of the text of an object.
-/

namespace AccessFilter.Yaml

/-! ## the characters of a written value -/

def AreShown (cs : List Char) : Prop := ∀ c ∈ cs, isShown c = true

theorem areShown_nil : AreShown [] := nofun

theorem areShown_cons {c : Char} {cs : List Char} (hc : isShown c = true) (h : AreShown cs) :
    AreShown (c :: cs) := List.forall_mem_cons.mpr ⟨hc, h⟩

theorem areShown_append {cs ds : List Char} (hcs : AreShown cs) (hds : AreShown ds) :
    AreShown (cs ++ ds) := List.forall_mem_append.mpr ⟨hcs, hds⟩

theorem areShown_blanks (n : Nat) : AreShown (blanks n) := by
  intro c hc
  rw [List.eq_of_mem_replicate hc]
  rfl

theorem areShown_singleLines (indent : Nat) (lineStart : Bool) {cs : List Char} (h : AreShown cs) :
    AreShown (singleLines indent lineStart cs) := by
  have hstart : ∀ b : Bool, AreShown (if b then blanks indent else []) := by
    intro b
    cases b
    · exact areShown_nil
    · exact areShown_blanks indent
  induction cs generalizing lineStart with
  | nil => exact hstart lineStart
  | cons c cs ih =>
    obtain ⟨hc, hcs⟩ := List.forall_mem_cons.mp h
    rw [singleLines]
    split
    · exact areShown_cons hc (ih true hcs)
    · refine areShown_append (hstart lineStart) (areShown_append ?_ (ih false hcs))
      split
      · exact areShown_cons rfl (areShown_cons rfl areShown_nil)
      · exact areShown_cons hc areShown_nil

theorem areShown_indentedLines (indent : Nat) (lineStart : Bool) {cs : List Char}
    (h : AreShown cs) : AreShown (indentedLines indent lineStart cs) := by
  induction cs generalizing lineStart with
  | nil => exact areShown_nil
  | cons c cs ih =>
    obtain ⟨hc, hcs⟩ := List.forall_mem_cons.mp h
    rw [indentedLines]
    split
    · exact areShown_cons hc (ih true hcs)
    · refine areShown_append ?_ (areShown_cons hc (ih false hcs))
      split
      · exact areShown_blanks indent
      · exact areShown_nil

theorem areShown_literalMarks (cs : List Char) : AreShown (literalMarks cs) := by
  rw [literalMarks_eq]
  refine areShown_append ?_ ?_
  · cases givesIndent cs
    · exact areShown_nil
    · exact areShown_cons rfl areShown_nil
  · cases chompingOf cs
    · exact areShown_cons rfl areShown_nil
    · exact areShown_nil
    · exact areShown_cons rfl areShown_nil

theorem areShown_writtenAs {style : ScalarStyle} {cs : List Char} (h : CanStand style cs)
    (indent : Nat) : AreShown (writtenAs indent style cs) := by
  cases style with
  | folded => exact h.elim
  | plain => exact fun c hc => ((plainRun_of_safe h.1).1.shown c hc).1
  | singleQuoted =>
    rw [writtenAs, writtenSingle_eq]
    refine areShown_append (areShown_cons rfl (areShown_singleLines indent false ?_))
      (areShown_cons rfl areShown_nil)
    exact fun c hc => ((singleRun_of_safe h.1 h.2).shown c hc).1
  | doubleQuoted =>
    refine areShown_append (areShown_cons rfl fun c hc => ?_) (areShown_cons rfl areShown_nil)
    obtain ⟨d, -, hd⟩ := List.mem_flatMap.mp hc
    exact (writtenEscape_shown hd).1
  | literal =>
    exact areShown_append (areShown_cons rfl (areShown_literalMarks cs))
      (areShown_cons rfl (areShown_indentedLines indent true h.1))

theorem areShown_endLine {cs : List Char} (h : AreShown cs) : AreShown (endLine cs) := by
  rw [endLine]
  split
  · exact h
  · exact areShown_append h (areShown_cons rfl areShown_nil)

theorem areShown_writtenKey (i : Nat) (k : String) : AreShown (writtenKey i k) := by
  have hk := areShown_writtenAs (canStand_styleOf k) (i + 2)
  rw [← writtenString_eq] at hk
  rw [writtenKey]
  split
  · exact areShown_append hk (areShown_cons rfl areShown_nil)
  · refine areShown_append (areShown_append ?_ (areShown_blanks i)) (areShown_cons rfl areShown_nil)
    exact areShown_cons rfl (areShown_cons rfl (areShown_endLine hk))

theorem areShown_gapBefore (short : Bool) (v : Value) (i : Nat) : AreShown (gapBefore short v i) := by
  rw [gapBefore]
  split
  · exact areShown_cons rfl (areShown_blanks _)
  · exact areShown_cons rfl areShown_nil

theorem areShown_scalar {v : Value} {style : ScalarStyle} {s : String}
    (h : v.scalar? = some (style, s)) (column : Nat) : AreShown (v.yamlChars column) := by
  rw [yamlChars_scalar h]
  exact areShown_endLine (areShown_writtenAs (canStand_scalar h) column)

theorem areShown_yamlItems {vs : List Value} (h : ∀ v ∈ vs, ∀ column, AreShown (v.yamlChars column))
    (i : Nat) : AreShown (Value.yamlItems i vs) := by
  induction vs with
  | nil => exact areShown_nil
  | cons v vs ih =>
    obtain ⟨hv, hvs⟩ := List.forall_mem_cons.mp h
    rw [Value.yamlItems]
    refine areShown_append (areShown_append (areShown_blanks i) ?_) (ih hvs)
    exact areShown_cons rfl (areShown_cons rfl (hv _))

theorem areShown_field {k : String} {v : Value} (h : ∀ column, AreShown (v.yamlChars column))
    (i : Nat) : AreShown (writtenKey i k ++ v.yamlAfter i (isShortKey k)) := by
  rw [yamlAfter_eq]
  exact areShown_append (areShown_writtenKey i k) (areShown_append (areShown_gapBefore _ v i) (h _))

theorem areShown_yamlFields {fs : List (String × Value)}
    (h : ∀ f ∈ fs, ∀ column, AreShown (f.2.yamlChars column)) (i : Nat) :
    AreShown (Value.yamlFields i fs) := by
  induction fs with
  | nil => exact areShown_nil
  | cons f fs ih =>
    obtain ⟨hf, hfs⟩ := List.forall_mem_cons.mp h
    rw [Value.yamlFields, List.append_assoc (blanks i)]
    exact areShown_append (areShown_append (areShown_blanks i) (areShown_field hf i)) (ih hfs)

/-- **Every character of a written value is written as it is.** -/
theorem areShown_yamlChars (v : Value) (column : Nat) : AreShown (v.yamlChars column) := by
  induction v using Value.induction generalizing column with
  | scalar v style s h => exact areShown_scalar h column
  | array vs ih =>
    cases vs with
    | nil => exact areShown_cons rfl (areShown_cons rfl (areShown_cons rfl areShown_nil))
    | cons v vs =>
      obtain ⟨hv, hvs⟩ := List.forall_mem_cons.mp ih
      exact areShown_append (areShown_cons rfl (areShown_cons rfl (hv _)))
        (areShown_yamlItems hvs column)
  | object fs ih =>
    cases fs with
    | nil => exact areShown_cons rfl (areShown_cons rfl (areShown_cons rfl areShown_nil))
    | cons f fs =>
      obtain ⟨hf, hfs⟩ := List.forall_mem_cons.mp ih
      exact areShown_append (areShown_field hf column) (areShown_yamlFields hfs column)

/-! ## the text -/

theorem isAllowed_of_shown {c : Char} (h : isShown c = true) : isAllowed c = true := by
  simp only [isShown, isAllowed, Bool.or_eq_true, Bool.and_eq_true, beq_iff_eq,
    decide_eq_true_eq] at h ⊢
  omega

/-- A text whose characters may all stand in a text is not cut. -/
theorem cutAt?_eq_none {cs : List Char} (h : ∀ c ∈ cs, isAllowed c = true) (room index start : Nat) :
    cutAt? room index start cs = none := by
  induction cs generalizing room index start with
  | nil => rfl
  | cons c cs ih =>
    obtain ⟨hc, hcs⟩ := List.forall_mem_cons.mp h
    rw [cutAt?, if_pos hc]
    exact ih hcs _ _ _

/-- **The tokens of the text of an object with fields.** -/
theorem ofText_yaml (f : String × Value) (fs : List (String × Value)) :
    Token.ofText (Value.object (f :: fs)).yaml
      = (Value.object (f :: fs)).tokens false ++ [.streamEnd] := by
  obtain ⟨k, v⟩ := f
  have hcut : cutAt? portionSize 0 0 ((Value.object ((k, v) :: fs)).yamlChars 0) = none :=
    cutAt?_eq_none (fun c hc => isAllowed_of_shown (areShown_yamlChars _ 0 c hc)) _ _ _
  have hrun := run_object k v fs (Nat.lt_succ_self _) (Nat.le_refl _)
  rw [Token.ofText, Value.yaml, String.toList_ofList, hcut]
  exact hrun

end AccessFilter.Yaml
