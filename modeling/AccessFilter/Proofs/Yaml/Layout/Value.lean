import AccessFilter.Proofs.Yaml.Layout.Mark
import AccessFilter.Proofs.Yaml.Tokens

/-!
# Written values give their tokens

A written value gives its tokens wherever it stands, and the state behind it is the one at the next
token with the collections closed that end before it. By induction over the value: an item, or a field
whose value does so, gives its tokens, and so does a run of them.

* `Scans`               a value gives its tokens wherever it stands;
* `scans_item`, `scans_field`   one item, one field;
* `scans_value`         every value does so;
* `run_object`          the tokens of the whole text of an object.
-/

namespace AccessFilter.Yaml

open Layout

variable {fuel : Nat} {p : Position} {is : List Nat} {T : List Token} {x : List Char}

/-- A value gives its tokens wherever it stands in a collection at column `i`: a block collection at
its own column, a scalar or an empty collection anywhere behind. -/
def Scans (fuel : Nat) (v : Value) : Prop :=
  ∀ (flat allowed : Bool) (p : Position) (i : Nat) (is : List Nat) (T : List Token) (n : Nat)
    (x : List Char), AtToken x → n ≤ i →
    (v.isBlock = true → allowed = true ∧ p.column = columnIn flat v i) →
    (v.isBlock = false → allowed = true → i ≠ p.column) →
    (v.yamlChars (columnIn flat v i)).length < fuel →
    ∃ q : Position, q.column = n ∧
      Reaches (stand fuel p (i :: is) none allowed T
          (v.yamlChars (columnIn flat v i) ++ (blanks n ++ x)))
        (arrived fuel q (i :: is) ((v.tokens flat).reverse ++ T) x)

/-! ## scalars and empty collections -/

theorem columnIn_of_not_list {v : Value} (h : v.isList = false) (flat : Bool) (i : Nat) :
    columnIn flat v i = i + 2 := by
  rw [columnIn, h, Bool.and_false]
  rfl

theorem scans_scalar {v : Value} {style : ScalarStyle} {s : String}
    (h : v.scalar? = some (style, s)) : Scans fuel v := by
  intro flat allowed p i is T n x hx hn _ hplace hfuel
  obtain ⟨htokens, hlist, hblock⟩ := Value.tokens_scalar h
  rw [columnIn_of_not_list hlist, yamlChars_scalar h] at hfuel ⊢
  have hlength : s.toList.length < fuel := by
    have hwritten := length_le_writtenAs (i + 2) style s.toList
    have hend := length_le_endLine (writtenAs (i + 2) style s.toList)
    omega
  rw [htokens]
  obtain ⟨q, hq, hreach⟩ : ∃ q : Position, q.column = n ∧ Reaches _
      (arrived fuel q (i :: is) (.scalar style (String.ofList s.toList) :: T) x) :=
    reaches_line (canStand_scalar h) (hplace hblock) hn hx hlength
  rw [String.ofList_toList] at hreach
  exact ⟨q, hq, hreach⟩

theorem scans_empty {v : Value} {left right : Char} {start stop : Token}
    (h : Brackets left right start stop) (hlist : v.isList = false) (hblock : v.isBlock = false)
    (hwritten : ∀ column, v.yamlChars column = [left, right, '\n'])
    (htokens : ∀ flat, v.tokens flat = [start, stop]) : Scans fuel v := by
  intro flat allowed p i is T n x hx _ _ hplace _
  rw [columnIn_of_not_list hlist, hwritten, htokens]
  exact reaches_brackets h (hplace hblock) hx

/-! ## one item, one field -/

theorem scans_item {v : Value} (h : Scans fuel v) (hopen : ∀ i, is.head? = some i → i ≤ p.column)
    {n : Nat} (hn : n ≤ p.column) (hx : AtToken x)
    (hfuel : (v.yamlChars (p.column + 2)).length < fuel) :
    ∃ q : Position, q.column = n ∧
      Reaches (stand fuel p is none true T
          ('-' :: ' ' :: v.yamlChars (p.column + 2) ++ (blanks n ++ x)))
        (arrived fuel q (openedAt p.column is)
          ((v.tokens false).reverse ++ .blockEntry :: (openingAt p.column is .blockSequence ++ T))
          x) := by
  obtain ⟨is', his'⟩ := exists_openedAt hopen
  obtain ⟨q, hq, hreach⟩ := reaches_entry (T := T)
    (atToken_yamlChars v (p.column + 2) (blanks n ++ x)) hopen
  rw [his'] at hreach ⊢
  have hcolumn : columnIn false v p.column = p.column + 2 := rfl
  obtain ⟨q', hq', hreach'⟩ := h false true q p.column is'
    (.blockEntry :: (openingAt p.column is .blockSequence ++ T)) n x hx hn
    (fun _ => ⟨rfl, hq⟩) (fun _ _ => by omega) hfuel
  exact ⟨q', hq', hreach.trans hreach'⟩

theorem between_gapBefore (short : Bool) (v : Value) (i : Nat) :
    Between (short && v.isBlock) (gapBefore short v i) := by
  rw [gapBefore]
  cases short && v.isBlock
  · exact .blank
  · exact .feed _

theorem atGap_gapBefore (short : Bool) (v : Value) (i : Nat) (tail : List Char) :
    atGap (gapBefore short v i ++ tail) = true := by
  rw [gapBefore]
  cases short && v.isBlock <;> rfl

theorem le_columnIn (flat : Bool) (v : Value) (i : Nat) : i ≤ columnIn flat v i := by
  rw [columnIn]
  split <;> omega

/-- Where a value starts behind the colon of its key: a block at its own column, anything else
further in than the key. -/
theorem column_after_gapBefore {q : Position} {i : Nat} {short : Bool} (hfar : i < q.column)
    (hlong : short = false → q.column = i + 1) (v : Value) (y : List Char) :
    i ≤ (q.after y (gapBefore short v i)).column ∧
      (v.isBlock = true → (q.after y (gapBefore short v i)).column = columnIn short v i) ∧
      (v.isBlock = false → i ≠ (q.after y (gapBefore short v i)).column) := by
  rw [gapBefore]
  cases hshort : short && v.isBlock with
  | true =>
    rw [if_pos rfl, (after_feed y _).1]
    refine ⟨le_columnIn _ _ _, fun _ => rfl, fun hb => ?_⟩
    rw [hb, Bool.and_false] at hshort
    cases hshort
  | false =>
    rw [if_neg Bool.false_ne_true, q.column_after_char y isBreak_blank]
    refine ⟨by omega, fun hb => ?_, fun _ => by omega⟩
    rw [hb, Bool.and_true] at hshort
    subst hshort
    rw [hlong rfl]
    rfl

theorem scans_field {k : String} {v : Value} (h : Scans fuel v)
    (hopen : ∀ i, is.head? = some i → i ≤ p.column) {n : Nat} (hn : n ≤ p.column) (hx : AtToken x)
    (hfuel : (writtenKey p.column k ++ v.yamlAfter p.column (isShortKey k)).length < fuel) :
    ∃ q : Position, q.column = n ∧
      Reaches (stand fuel p is none true T
          (writtenKey p.column k ++ v.yamlAfter p.column (isShortKey k) ++ (blanks n ++ x)))
        (arrived fuel q (openedAt p.column is)
          ((v.tokens (isShortKey k)).reverse ++ .value :: .scalar (styleOf k) k :: .key ::
            (openingAt p.column is .blockMapping ++ T)) x) := by
  obtain ⟨is', his'⟩ := exists_openedAt hopen
  rw [yamlAfter_eq, List.length_append, List.length_append] at hfuel
  have hkeyfuel : k.toList.length < fuel := by
    have := length_le_writtenKey p.column k
    omega
  rw [yamlAfter_eq, List.append_assoc, List.append_assoc]
  generalize hshort : isShortKey k = short at hfuel ⊢
  obtain ⟨q₀, hfar, hlong, hacts⟩ := acts_key (T := T)
    (atGap_gapBefore short v p.column (v.yamlChars (columnIn short v p.column) ++ (blanks n ++ x)))
    hopen hkeyfuel
  rw [his', hshort] at hacts
  rw [hshort] at hlong
  rw [his']
  have hcolumn := column_after_gapBefore hfar hlong v
  have hland : (stand fuel q₀ (p.column :: is') none (!short) (.value :: .scalar (styleOf k) k ::
      .key :: (openingAt p.column is .blockMapping ++ T)) (gapBefore short v p.column ++
        (v.yamlChars (columnIn short v p.column) ++ (blanks n ++ x)))).land = _ :=
    land_stand (atToken_yamlChars v (columnIn short v p.column) (blanks n ++ x))
      (between_gapBefore short v p.column) rfl
      (deeper_eq_zero (forall_head?_cons (hcolumn _).1))
  have hreach := hacts.land isOpen_stand hland (by
    simp only [stand, List.length_append]
    omega)
  obtain ⟨q, hq, hreach'⟩ := h short (!short || (short && v.isBlock)) _ p.column is'
    (.value :: .scalar (styleOf k) k :: .key :: (openingAt p.column is .blockMapping ++ T)) n x hx hn
    (fun hb => ⟨by rw [hb]; cases short <;> rfl, (hcolumn _).2.1 hb⟩)
    (fun hb _ => (hcolumn _).2.2 hb) (by omega)
  exact ⟨q, hq, hreach.trans hreach'⟩

/-! ## runs of items and of fields -/

/-- What follows where the items of a sequence at column `i` are still to come: its column, and the
text from there on. -/
def nextItem (i n : Nat) (x : List Char) : List Value → Nat × List Char
  | [] => (n, x)
  | v :: vs => (i, '-' :: ' ' :: v.yamlChars (i + 2) ++ (Value.yamlItems i vs ++ (blanks n ++ x)))

/-- What follows where the fields of a mapping at column `i` are still to come. -/
def nextField (i n : Nat) (x : List Char) : List (String × Value) → Nat × List Char
  | [] => (n, x)
  | (k, v) :: fs => (i, writtenKey i k ++ v.yamlAfter i (isShortKey k) ++
      (Value.yamlFields i fs ++ (blanks n ++ x)))

section
variable {i n : Nat} (hn : n ≤ i) (hx : AtToken x)

theorem yamlItems_eq (vs : List Value) : Value.yamlItems i vs ++ (blanks n ++ x)
    = blanks (nextItem i n x vs).1 ++ (nextItem i n x vs).2 := by
  cases vs with
  | nil => rfl
  | cons v vs =>
    rw [Value.yamlItems, nextItem]
    simp

theorem yamlFields_eq (fs : List (String × Value)) : Value.yamlFields i fs ++ (blanks n ++ x)
    = blanks (nextField i n x fs).1 ++ (nextField i n x fs).2 := by
  cases fs with
  | nil => rfl
  | cons f fs =>
    rw [Value.yamlFields, nextField]
    simp

include hn hx

theorem nextItem_spec (vs : List Value) :
    (nextItem i n x vs).1 ≤ i ∧ AtToken (nextItem i n x vs).2 := by
  cases vs with
  | nil => exact ⟨hn, hx⟩
  | cons v vs => exact ⟨Nat.le_refl i, atToken_char (by decide) _⟩

theorem nextField_spec (fs : List (String × Value)) :
    (nextField i n x fs).1 ≤ i ∧ AtToken (nextField i n x fs).2 := by
  cases fs with
  | nil => exact ⟨hn, hx⟩
  | cons f fs =>
    refine ⟨Nat.le_refl i, ?_⟩
    rw [nextField, List.append_assoc]
    exact atToken_writtenKey i f.1 _

/-- The items that are still to come, in a sequence that is open. -/
theorem scans_items {vs : List Value} (hvs : ∀ v ∈ vs, Scans fuel v)
    (hfuel : (Value.yamlItems i vs).length < fuel) (T : List Token) {q : Position}
    (hq : q.column = (nextItem i n x vs).1) :
    ∃ q' : Position, q'.column = n ∧
      Reaches (arrived fuel q (i :: is) T (nextItem i n x vs).2)
        (arrived fuel q' (i :: is) ((Value.itemTokens vs).reverse ++ T) x) := by
  -- behind each item the state is at the next one, at column `i`, so the sequence stays open
  induction vs generalizing T q with
  | nil => exact ⟨q, hq, .refl _⟩
  | cons v vs ih =>
    obtain ⟨hv, hvs⟩ := List.forall_mem_cons.mp hvs
    have hq : q.column = i := hq
    rw [Value.yamlItems, List.length_append, List.length_append, List.length_cons,
      List.length_cons] at hfuel
    obtain ⟨hle, htoken⟩ := nextItem_spec hn hx vs
    have hopen : ∀ j, (i :: is).head? = some j → j ≤ q.column :=
      forall_head?_cons (Nat.le_of_eq hq.symm)
    have hbefore : (nextItem i n x vs).1 ≤ q.column := Nat.le_trans hle (Nat.le_of_eq hq.symm)
    obtain ⟨q₁, hq₁, hreach₁⟩ := scans_item (T := T) hv hopen hbefore htoken (by
      rw [hq]
      omega)
    rw [hq, (openedAt_self i is .blockSequence).1, (openedAt_self i is .blockSequence).2,
      List.nil_append] at hreach₁
    obtain ⟨q₂, hq₂, hreach₂⟩ := ih hvs (by omega) ((v.tokens false).reverse ++ .blockEntry :: T) hq₁
    refine ⟨q₂, hq₂, ?_⟩
    have htokens : (Value.itemTokens (v :: vs)).reverse ++ T
        = (Value.itemTokens vs).reverse ++ ((v.tokens false).reverse ++ .blockEntry :: T) := by
      rw [Value.itemTokens]
      simp
    rw [htokens, nextItem, yamlItems_eq, arrived_eq_stand hopen]
    exact hreach₁.trans hreach₂

/-- The fields that are still to come, in a mapping that is open. -/
theorem scans_fields {fs : List (String × Value)} (hfs : ∀ f ∈ fs, Scans fuel f.2)
    (hfuel : (Value.yamlFields i fs).length < fuel) (T : List Token) {q : Position}
    (hq : q.column = (nextField i n x fs).1) :
    ∃ q' : Position, q'.column = n ∧
      Reaches (arrived fuel q (i :: is) T (nextField i n x fs).2)
        (arrived fuel q' (i :: is) ((Value.fieldTokens fs).reverse ++ T) x) := by
  induction fs generalizing T q with
  | nil => exact ⟨q, hq, .refl _⟩
  | cons f fs ih =>
    obtain ⟨k, v⟩ := f
    obtain ⟨hv, hfs⟩ := List.forall_mem_cons.mp hfs
    have hq : q.column = i := hq
    rw [Value.yamlFields, List.length_append, List.append_assoc, List.length_append] at hfuel
    obtain ⟨hle, htoken⟩ := nextField_spec hn hx fs
    have hopen : ∀ j, (i :: is).head? = some j → j ≤ q.column :=
      forall_head?_cons (Nat.le_of_eq hq.symm)
    have hbefore : (nextField i n x fs).1 ≤ q.column := Nat.le_trans hle (Nat.le_of_eq hq.symm)
    obtain ⟨q₁, hq₁, hreach₁⟩ := scans_field (T := T) (k := k) (v := v) hv hopen hbefore htoken (by
      rw [hq]
      omega)
    rw [hq, (openedAt_self i is .blockMapping).1, (openedAt_self i is .blockMapping).2,
      List.nil_append] at hreach₁
    obtain ⟨q₂, hq₂, hreach₂⟩ := ih hfs (by omega)
      ((v.tokens (isShortKey k)).reverse ++ .value :: .scalar (styleOf k) k :: .key :: T) hq₁
    refine ⟨q₂, hq₂, ?_⟩
    have htokens : (Value.fieldTokens ((k, v) :: fs)).reverse ++ T = (Value.fieldTokens fs).reverse ++
        ((v.tokens (isShortKey k)).reverse ++ .value :: .scalar (styleOf k) k :: .key :: T) := by
      rw [Value.fieldTokens]
      simp
    rw [htokens, nextField, yamlFields_eq, arrived_eq_stand hopen]
    exact hreach₁.trans hreach₂

end

/-! ## every value -/

theorem scans_array {v : Value} {vs : List Value} (hv : Scans fuel v) (hvs : ∀ v ∈ vs, Scans fuel v) :
    Scans fuel (.array (v :: vs)) := by
  intro flat allowed p i is T n x hx hn hplace _ hfuel
  obtain ⟨rfl, hp⟩ := hplace rfl
  have hwritten : ∀ c, (Value.array (v :: vs)).yamlChars c
      = '-' :: ' ' :: v.yamlChars (c + 2) ++ Value.yamlItems c vs := fun c => rfl
  rw [← hp, hwritten, List.length_append, List.length_cons, List.length_cons] at hfuel
  rw [← hp, hwritten, List.append_assoc, yamlItems_eq]
  have hle : i ≤ p.column := hp ▸ le_columnIn flat _ i
  obtain ⟨hnext, htoken⟩ := nextItem_spec (Nat.le_trans hn hle) hx vs
  have hopen : ∀ j, (i :: is).head? = some j → j ≤ p.column := forall_head?_cons hle
  obtain ⟨q₁, hq₁, hreach₁⟩ := scans_item (T := T) hv hopen hnext htoken (by omega)
  cases flat with
  | true =>
    -- the items stand at the column of the mapping around them, and no collection is opened
    have hi : p.column = i := hp
    rw [hi] at hreach₁ hq₁ hfuel ⊢
    rw [(openedAt_self i is .blockSequence).1, (openedAt_self i is .blockSequence).2,
      List.nil_append] at hreach₁
    obtain ⟨q₂, hq₂, hreach₂⟩ := scans_items hn hx hvs (by omega)
      ((v.tokens false).reverse ++ .blockEntry :: T) hq₁
    refine ⟨q₂, hq₂, ?_⟩
    have htokens : ((Value.array (v :: vs)).tokens true).reverse ++ T
        = (Value.itemTokens vs).reverse ++ ((v.tokens false).reverse ++ .blockEntry :: T) := by
      rw [Value.tokens]
      simp [Value.itemTokens]
    rw [htokens]
    exact hreach₁.trans hreach₂
  | false =>
    have hi : p.column = i + 2 := hp
    rw [hi] at hreach₁ hq₁ hfuel ⊢
    have hdeep : ∀ j, (i :: is).head? = some j → j < i + 2 := forall_head?_cons (by omega)
    obtain ⟨hopened, hopening⟩ := openedAt_of_lt hdeep .blockSequence
    rw [hopened, hopening] at hreach₁
    obtain ⟨q₂, hq₂, hreach₂⟩ := scans_items (by omega : n ≤ i + 2) hx hvs (by omega)
      ((v.tokens false).reverse ++ .blockEntry :: ([.blockSequence] ++ T)) hq₁
    refine ⟨q₂, hq₂, ?_⟩
    have htokens : ((Value.array (v :: vs)).tokens false).reverse ++ T = .blockEnd ::
        ((Value.itemTokens vs).reverse ++ ((v.tokens false).reverse ++
          .blockEntry :: ([.blockSequence] ++ T))) := by
      rw [Value.tokens]
      simp [Value.itemTokens]
    rw [htokens, ← arrived_cons (by omega : q₂.column < i + 2)]
    exact hreach₁.trans hreach₂

theorem scans_object {k : String} {v : Value} {fs : List (String × Value)} (hv : Scans fuel v)
    (hfs : ∀ f ∈ fs, Scans fuel f.2) : Scans fuel (.object ((k, v) :: fs)) := by
  intro flat allowed p i is T n x hx hn hplace _ hfuel
  obtain ⟨rfl, hp⟩ := hplace rfl
  have hwritten : ∀ c, (Value.object ((k, v) :: fs)).yamlChars c
      = writtenKey c k ++ v.yamlAfter c (isShortKey k) ++ Value.yamlFields c fs := fun c => rfl
  have hi : columnIn flat (.object ((k, v) :: fs)) i = i + 2 := columnIn_of_not_list rfl flat i
  rw [hi] at hp hfuel ⊢
  rw [hwritten, List.length_append] at hfuel
  rw [hwritten, List.append_assoc, yamlFields_eq]
  obtain ⟨hnext, htoken⟩ := nextField_spec (by omega : n ≤ i + 2) hx fs
  have hopen : ∀ j, (i :: is).head? = some j → j ≤ p.column := forall_head?_cons (by omega)
  have hbefore : (nextField (i + 2) n x fs).1 ≤ p.column := Nat.le_trans hnext (Nat.le_of_eq hp.symm)
  obtain ⟨q₁, hq₁, hreach₁⟩ := scans_field (T := T) (k := k) (v := v) hv hopen hbefore htoken (by
    rw [hp]
    omega)
  have hdeep : ∀ j, (i :: is).head? = some j → j < i + 2 := forall_head?_cons (by omega)
  obtain ⟨hopened, hopening⟩ := openedAt_of_lt hdeep .blockMapping
  rw [hp, hopened, hopening] at hreach₁
  obtain ⟨q₂, hq₂, hreach₂⟩ := scans_fields (by omega : n ≤ i + 2) hx hfs (by omega)
    ((v.tokens (isShortKey k)).reverse ++ .value :: .scalar (styleOf k) k :: .key ::
      ([.blockMapping] ++ T)) hq₁
  refine ⟨q₂, hq₂, ?_⟩
  have htokens : ((Value.object ((k, v) :: fs)).tokens flat).reverse ++ T = .blockEnd ::
      ((Value.fieldTokens fs).reverse ++ ((v.tokens (isShortKey k)).reverse ++ .value ::
        .scalar (styleOf k) k :: .key :: ([.blockMapping] ++ T))) := by
    rw [Value.tokens]
    simp [Value.fieldTokens]
  rw [htokens, ← arrived_cons (by omega : q₂.column < i + 2)]
  exact hreach₁.trans hreach₂

/-- **Every value gives its tokens wherever it stands.** -/
theorem scans_value (fuel : Nat) (v : Value) : Scans fuel v := by
  induction v using Value.induction with
  | scalar v style s h => exact scans_scalar h
  | array vs ih =>
    cases vs with
    | nil => exact scans_empty .sequence rfl rfl (fun _ => rfl) fun _ => rfl
    | cons v vs =>
      obtain ⟨hv, hvs⟩ := List.forall_mem_cons.mp ih
      exact scans_array hv hvs
  | object fs ih =>
    cases fs with
    | nil => exact scans_empty .mapping rfl rfl (fun _ => rfl) fun _ => rfl
    | cons f fs =>
      obtain ⟨hv, hfs⟩ := List.forall_mem_cons.mp ih
      exact scans_object hv hfs

def origin : Position := ⟨0, 0, 0⟩

/-- **The text of an object with fields is followed to its end.** -/
theorem run_object (k : String) (v : Value) (fs : List (String × Value)) {steps : Nat}
    (hfuel : ((Value.object ((k, v) :: fs)).yamlChars 0).length < fuel)
    (hsteps : ((Value.object ((k, v) :: fs)).yamlChars 0).length + 2 ≤ steps) :
    Layout.run steps (stand fuel origin [] none true [] ((Value.object ((k, v) :: fs)).yamlChars 0))
      = (Value.object ((k, v) :: fs)).tokens false ++ [.streamEnd] := by
  have hend : AtToken [] := nofun
  have hwritten : (Value.object ((k, v) :: fs)).yamlChars 0 = writtenKey 0 k ++
      v.yamlAfter 0 (isShortKey k) ++ (blanks (nextField 0 0 [] fs).1 ++ (nextField 0 0 [] fs).2) := by
    rw [← yamlFields_eq]
    show _ = writtenKey 0 k ++ v.yamlAfter 0 (isShortKey k) ++ (Value.yamlFields 0 fs ++ [])
    rw [List.append_nil]
    rfl
  have hlength : (writtenKey 0 k ++ v.yamlAfter 0 (isShortKey k)).length < fuel ∧
      (Value.yamlFields 0 fs).length < fuel := by
    have hsplit : (Value.object ((k, v) :: fs)).yamlChars 0
        = writtenKey 0 k ++ v.yamlAfter 0 (isShortKey k) ++ Value.yamlFields 0 fs := rfl
    rw [hsplit, List.length_append] at hfuel
    omega
  obtain ⟨hnext, htoken⟩ := nextField_spec (Nat.le_refl 0) hend fs
  have hopen : ∀ i, ([] : List Nat).head? = some i → i ≤ origin.column := nofun
  obtain ⟨q₁, hq₁, hreach₁⟩ := scans_field (T := []) (k := k) (scans_value fuel v) hopen hnext htoken
    hlength.1
  obtain ⟨q₂, hq₂, hreach₂⟩ := scans_fields (Nat.le_refl 0) hend
    (fun f _ => scans_value fuel f.2) hlength.2
    ((v.tokens (isShortKey k)).reverse ++ .value :: .scalar (styleOf k) k :: .key ::
      [.blockMapping]) hq₁
  -- the mapping is at the first column, so it is still open at the end of the text
  have hlast : ∀ T, arrived fuel q₂ [0] T [] = stand fuel q₂ [0] none true T [] := fun T =>
    arrived_eq_stand (forall_head?_cons (Nat.zero_le _)) []
  rw [hlast] at hreach₂
  have hland : (stand fuel origin [] none true []
      ((Value.object ((k, v) :: fs)).yamlChars 0)).land
      = some (stand fuel origin [] none true [] ((Value.object ((k, v) :: fs)).yamlChars 0)) := by
    have htoken := atToken_yamlChars (.object ((k, v) :: fs)) 0 []
    rw [List.append_nil] at htoken
    exact land_token htoken
  have hreach := hreach₁.trans hreach₂
  have hact : (stand fuel q₂ [0] none true ((Value.fieldTokens fs).reverse ++
      ((v.tokens (isShortKey k)).reverse ++ .value :: .scalar (styleOf k) k :: .key ::
        [.blockMapping])) []).act = _ := act_endOfText hq₂
  rw [show origin.column = 0 from rfl, ← hwritten] at hreach
  rw [run_of_reaches hreach isOpen_stand hact rfl rfl rfl hland hsteps]
  show (Token.streamEnd :: Token.blockEnd :: _).reverse = _
  rw [Value.tokens]
  simp [Value.fieldTokens]

end AccessFilter.Yaml
