import AccessFilter.Proofs.Yaml.Layout.Scalar

/-!
# Marks

The marks before an item, a key and a value. A mark that is further in than the collection around it
opens a collection; the marks of a key without a question mark are put in front of it at its colon.

* `openedAt`, `openingAt`   the indentations and the token of a collection that is opened;
* `Layout.reaches_entry`    the dash before an item;
* `Layout.reaches_keyMark`  the question mark before a long key;
* `Layout.acts_key`         a key with its colon, up to the value;
* `Layout.reaches_brackets` an empty collection.
-/

namespace AccessFilter.Yaml.Layout

/-! ## opening a collection -/

/-- The open indentations behind a mark at a column. -/
def openedAt (column : Nat) (is : List Nat) : List Nat :=
  if is.head?.all (· < column) then column :: is else is

/-- The token of the collection that a mark at a column opens. -/
def openingAt (column : Nat) (is : List Nat) (t : Token) : List Token :=
  if is.head?.all (· < column) then [t] else []

theorem openedAt_of_lt {column : Nat} {is : List Nat} (h : ∀ i, is.head? = some i → i < column)
    (t : Token) : openedAt column is = column :: is ∧ openingAt column is t = [t] := by
  have hall : is.head?.all (· < column) = true := by
    cases is with
    | nil => rfl
    | cons i is => exact decide_eq_true (h i rfl)
  exact ⟨if_pos hall, if_pos hall⟩

theorem openedAt_self (column : Nat) (is : List Nat) (t : Token) :
    openedAt column (column :: is) = column :: is ∧ openingAt column (column :: is) t = [] := by
  have hall : ¬((column :: is).head?.all (· < column)) = true := by simp
  exact ⟨if_neg hall, if_neg hall⟩

theorem openedAt_le {column : Nat} {is : List Nat} (h : ∀ i, is.head? = some i → i ≤ column) :
    ∀ i, (openedAt column is).head? = some i → i ≤ column := by
  intro i hi
  rw [openedAt] at hi
  split at hi
  · exact Nat.le_of_eq (Option.some.inj hi).symm
  · exact h i hi

section
variable {fuel : Nat} {p : Position} {is : List Nat} {key : Option PossibleKey} {allowed : Bool}
  {T W : List Token} {rest : List Char}

theorem insertIdx_length_append (W T : List Token) (t : Token) :
    (W ++ T).insertIdx W.length t = W ++ t :: T := by
  induction W with
  | nil => rfl
  | cons w W ih => exact congrArg (w :: ·) ih

theorem insertAt_stand (t : Token) :
    (stand fuel p is key allowed (W ++ T) rest).insertAt T.length t
      = stand fuel p is key allowed (W ++ t :: T) rest := by
  have hcount : (W ++ T).length - T.length = W.length := by
    rw [List.length_append, Nat.add_sub_cancel]
  show Layout.mk _ _ _ _ ((W ++ T).insertIdx ((W ++ T).length - T.length) t)
    ((W ++ T).length + 1) _ _ _ _ _ = Layout.mk _ _ _ _ _ ((W ++ t :: T).length) _ _ _ _ _
  rw [hcount, insertIdx_length_append, List.length_append, List.length_append, List.length_cons,
    Nat.add_assoc]
  rfl

theorem openBlock_stand (column : Nat) (t : Token) :
    (stand fuel p is key allowed (W ++ T) rest).openBlock column T.length t
      = stand fuel p (openedAt column is) key allowed (W ++ (openingAt column is t ++ T)) rest := by
  rw [openBlock, openedAt, openingAt]
  show (if (true && is.head?.all (· < column)) = true then _ else _) = _
  rw [Bool.true_and]
  split
  · rw [insertAt_stand]
    rfl
  · rfl

theorem openBlock_here (column : Nat) (t : Token) :
    (stand fuel p is key allowed T rest).openBlock column T.length t
      = stand fuel p (openedAt column is) key allowed (openingAt column is t ++ T) rest :=
  openBlock_stand (W := []) column t

/-! ## marks before an item or a key -/

theorem take_entry {y : List Char} :
    (stand fuel p is key allowed T ('-' :: ' ' :: y)).take
      = (stand fuel p is key allowed T ('-' :: ' ' :: y)).blockEntry := by
  show tokenAt _ '-' (' ' :: y) = _
  rw [tokenAt, if_neg (by simp), if_neg (by simp [atDocumentMark, stand])]
  rfl

theorem take_keyMark {y : List Char} :
    (stand fuel p is key allowed T ('?' :: ' ' :: y)).take
      = (stand fuel p is key allowed T ('?' :: ' ' :: y)).keyMark := by
  show tokenAt _ '?' (' ' :: y) = _
  rw [tokenAt, if_neg (by simp), if_neg (by simp [atDocumentMark, stand])]
  rfl

theorem blockEntry_of_allowed {s t u : Layout} (hallowed : s.keyAllowed = true)
    (hopen : s.openBlock s.column s.count .blockSequence = t) (hdrop : t.dropKey = some u) :
    s.blockEntry = some { u.mark .blockEntry with keyAllowed := true } := by
  rw [blockEntry, hallowed, hopen, hdrop, Bool.not_true, Bool.and_false]
  rfl

theorem keyMark_of_allowed {s t u : Layout} (hallowed : s.keyAllowed = true)
    (hopen : s.openBlock s.column s.count .blockMapping = t) (hdrop : t.dropKey = some u)
    (hflow : u.inFlow = false) : s.keyMark = some { u.mark .key with keyAllowed := true } := by
  rw [keyMark, hallowed, hopen, hdrop, Bool.not_true, Bool.and_false]
  show some { u.mark .key with keyAllowed := !u.inFlow } = _
  rw [hflow]
  rfl

theorem act_entry {y : List Char} :
    (stand fuel p is none true T ('-' :: ' ' :: y)).act
      = some (stand fuel (p.after (' ' :: y) ['-']) (openedAt p.column is) none true
          (.blockEntry :: (openingAt p.column is .blockSequence ++ T)) (' ' :: y)) := by
  rw [act, take_entry, blockEntry_of_allowed rfl (openBlock_here p.column .blockSequence) rfl]
  rfl

theorem act_keyMark {y : List Char} :
    (stand fuel p is none true T ('?' :: ' ' :: y)).act
      = some (stand fuel (p.after (' ' :: y) ['?']) (openedAt p.column is) none true
          (.key :: (openingAt p.column is .blockMapping ++ T)) (' ' :: y)) := by
  rw [act, take_keyMark, keyMark_of_allowed rfl (openBlock_here p.column .blockMapping) rfl rfl]
  rfl

theorem column_after_mark {c : Char} (hc : isBreak c = false) (y : List Char) :
    ((p.after (' ' :: y) [c]).after y [' ']).column = p.column + 2 := by
  rw [Position.column_after_char _ _ isBreak_blank, Position.column_after_char _ _ hc]

theorem reaches_mark {c : Char} (hc : isBreak c = false) {y : List Char} (hy : AtToken y)
    {is' : List Nat} (hopen : ∀ i, is'.head? = some i → i ≤ p.column) {T' : List Token}
    (hact : (stand fuel p is none true T (c :: ' ' :: y)).act
      = some (stand fuel (p.after (' ' :: y) [c]) is' none true T' (' ' :: y))) :
    ∃ q : Position, q.column = p.column + 2 ∧
      Reaches (stand fuel p is none true T (c :: ' ' :: y)) (stand fuel q is' none true T' y) := by
  have hcolumn := column_after_mark (p := p) hc y
  have hland : (stand fuel (p.after (' ' :: y) [c]) is' none true T' ([' '] ++ y)).land = _ :=
    land_stand hy .blank rfl (deeper_eq_zero fun i hi => by
      rw [hcolumn]
      exact Nat.le_trans (hopen i hi) (Nat.le_add_right _ 2))
  refine ⟨_, hcolumn, .one isOpen_stand isOpen_stand hact hland ?_⟩
  show y.length < y.length + 1 + 1
  omega

theorem reaches_entry {y : List Char} (hy : AtToken y)
    (hopen : ∀ i, is.head? = some i → i ≤ p.column) :
    ∃ q : Position, q.column = p.column + 2 ∧
      Reaches (stand fuel p is none true T ('-' :: ' ' :: y))
        (stand fuel q (openedAt p.column is) none true
          (.blockEntry :: (openingAt p.column is .blockSequence ++ T)) y) :=
  reaches_mark (by decide) hy (openedAt_le hopen) act_entry

theorem reaches_keyMark {y : List Char} (hy : AtToken y)
    (hopen : ∀ i, is.head? = some i → i ≤ p.column) :
    ∃ q : Position, q.column = p.column + 2 ∧
      Reaches (stand fuel p is none true T ('?' :: ' ' :: y))
        (stand fuel q (openedAt p.column is) none true
          (.key :: (openingAt p.column is .blockMapping ++ T)) y) :=
  reaches_mark (by decide) hy (openedAt_le hopen) act_keyMark

/-! ## the colon before a value -/

theorem take_valueMark {y : List Char} (hy : atGap y = true) :
    (stand fuel p is key allowed T (':' :: y)).take
      = (stand fuel p is key allowed T (':' :: y)).valueMark := by
  show tokenAt _ ':' y = _
  rw [tokenAt, if_neg (by simp), if_neg (by simp [atDocumentMark, stand])]
  show (if (true && (false || atGap y)) = true then _ else _) = _
  rw [hy]
  rfl

theorem valueMark_of_allowed {s t : Layout} (hkey : s.key = none) (hallowed : s.keyAllowed = true)
    (hopen : s.openBlock s.column s.count .blockMapping = t) (hflow : t.inFlow = false) :
    s.valueMark = some { t.mark .value with keyAllowed := true } := by
  subst hopen
  rw [valueMark, hkey, hallowed]
  dsimp only
  rw [Bool.not_true, Bool.and_false, if_neg Bool.false_ne_true, hflow, Bool.not_false]

/-- The colon behind a short key: the marks of the key are put in front of it. -/
theorem act_colon {y : List Char} (hy : atGap y = true) (q : Position) (required : Bool) (t : Token) :
    (stand fuel q is (some ⟨required, T.length, p⟩) allowed (t :: T) (':' :: y)).act
      = some (stand fuel (q.after y [':']) (openedAt p.column is) none false
          (.value :: t :: .key :: (openingAt p.column is .blockMapping ++ T)) y) := by
  have hinsert : (stand fuel q is (some ⟨required, T.length, p⟩) allowed ([t] ++ T)
      (':' :: y)).insertAt T.length .key = _ := insertAt_stand .key
  have hopen : (stand fuel q is (some ⟨required, T.length, p⟩) allowed ([t, .key] ++ T)
      (':' :: y)).openBlock p.column T.length .blockMapping = _ := openBlock_stand _ _
  rw [act, take_valueMark hy]
  show (some { ((((stand fuel q is (some ⟨required, T.length, p⟩) allowed ([t] ++ T)
    (':' :: y)).insertAt T.length .key).openBlock p.column T.length .blockMapping).mark
      .value).withKey none with keyAllowed := false }).bind dropStale = _
  rw [hinsert, show [t] ++ Token.key :: T = [t, .key] ++ T from rfl, hopen]
  rfl

theorem act_longColon {y : List Char} (hy : atGap y = true) :
    (stand fuel p (p.column :: is) none true T (':' :: y)).act
      = some (stand fuel (p.after y [':']) (p.column :: is) none true (.value :: T) y) := by
  have hopen : (stand fuel p (p.column :: is) none true T (':' :: y)).openBlock p.column T.length
      .blockMapping = _ := openBlock_here p.column .blockMapping
  rw [(openedAt_self p.column is .blockMapping).1, (openedAt_self p.column is .blockMapping).2]
    at hopen
  rw [act, take_valueMark hy, valueMark_of_allowed rfl rfl hopen rfl]
  rfl

theorem exists_openedAt {column : Nat} (h : ∀ i, is.head? = some i → i ≤ column) :
    ∃ is', openedAt column is = column :: is' := by
  cases is with
  | nil => exact ⟨[], rfl⟩
  | cons i is =>
    rcases Nat.lt_or_eq_of_le (h i rfl) with hlt | rfl
    · exact ⟨i :: is, (openedAt_of_lt (fun j hj => Option.some.inj hj ▸ hlt) .blockMapping).1⟩
    · exact ⟨is, (openedAt_self i is .blockMapping).1⟩

theorem column_after_colon (q : Position) (rest : List Char) :
    (q.after rest [':']).column = q.column + 1 := q.column_after_char rest (by decide)

/-- **A key with its colon.** -/
theorem acts_key {k : String} {rest : List Char} (hrest : atGap rest = true)
    (hopen : ∀ i, is.head? = some i → i ≤ p.column) (hfuel : k.toList.length < fuel) :
    ∃ q : Position, p.column < q.column ∧ (isShortKey k = false → q.column = p.column + 1) ∧
      Acts (stand fuel p is none true T (writtenKey p.column k ++ rest))
        (stand fuel q (openedAt p.column is) none (!isShortKey k)
          (.value :: .scalar (styleOf k) k :: .key :: (openingAt p.column is .blockMapping ++ T))
          rest) := by
  have hcolon : AtToken (':' :: rest) := atToken_char (by decide) rest
  cases hshort : isShortKey k with
  | true =>
    obtain ⟨q, -, hcolumn, hreach, -⟩ := reaches_shortKey (T := T) hshort
      (Nat.succ_pos (p.column + 1)) hopen hfuel hrest
    refine ⟨q.after rest [':'], ?_, nofun, ?_⟩
    · rw [column_after_colon]
      exact Nat.lt_succ_of_le hcolumn
    · rw [writtenKey, if_pos hshort, List.append_assoc]
      exact hreach.acts (.of_act isOpen_stand (act_colon hrest q _ _) (Nat.lt_succ_self _))
  | false =>
    -- the mark opens the mapping, so the colon finds it open and no possible key
    obtain ⟨is', his'⟩ := exists_openedAt hopen
    have htoken := atToken_writtenAs (p.column + 2) (canStand_styleOf k)
    obtain ⟨q₁, hq₁, hreach₁⟩ := reaches_keyMark (p := p) (T := T)
      (y := endLine (writtenString (p.column + 2) k) ++ (blanks p.column ++ ':' :: rest)) (by
        rw [writtenString_eq, endLine]
        split
        · exact htoken _
        · rw [List.append_assoc]
          exact htoken _) hopen
    rw [his'] at hreach₁
    obtain ⟨q₂, hq₂, hreach₂⟩ := reaches_line (p := q₁)
      (T := .key :: (openingAt p.column is .blockMapping ++ T)) (canStand_styleOf k)
      (fun _ => by omega) (Nat.le_refl p.column) hcolon hfuel
    rw [← writtenString_eq, String.ofList_toList,
      arrived_eq_stand (forall_head?_cons (Nat.le_of_eq hq₂.symm))] at hreach₂
    have hact : (stand fuel q₂ (q₂.column :: is') none true
        (.scalar (styleOf k) k :: .key :: (openingAt p.column is .blockMapping ++ T))
        (':' :: rest)).act = _ := act_longColon hrest
    rw [hq₂] at hact
    refine ⟨q₂.after rest [':'], ?_, fun _ => ?_, ?_⟩
    · rw [column_after_colon, hq₂]
      exact Nat.lt_succ_self _
    · rw [column_after_colon, hq₂]
    · rw [writtenKey, if_neg (by rw [hshort]; exact Bool.false_ne_true), his']
      have htext : '?' :: ' ' :: endLine (writtenString (p.column + 2) k) ++ blanks p.column ++ [':']
          ++ rest = '?' :: ' ' :: (endLine (writtenString (p.column + 2) k) ++
            (blanks p.column ++ ':' :: rest)) := by simp
      rw [htext]
      exact (hreach₁.trans hreach₂).acts (.of_act isOpen_stand hact (Nat.lt_succ_self _))

/-! ## empty collections -/

/-- The brackets of an empty collection with their tokens. -/
inductive Brackets : (left right : Char) → (start stop : Token) → Prop
  | sequence : Brackets '[' ']' .openSequence .closeSequence
  | mapping : Brackets '\x7b' '\x7d' .openMapping .closeMapping

variable {left right : Char} {start stop : Token}

theorem take_left (h : Brackets left right start stop) :
    (stand fuel p is key allowed T (left :: rest)).take
      = (stand fuel p is key allowed T (left :: rest)).openFlow start := by
  cases h with
  | sequence =>
    show tokenAt _ '[' rest = _
    rw [tokenAt, if_neg (by simp), if_neg (by simp [atDocumentMark, stand])]
    rfl
  | mapping =>
    show tokenAt _ '\x7b' rest = _
    rw [tokenAt, if_neg (by simp), if_neg (by simp [atDocumentMark, stand])]
    rfl

theorem act_left (h : Brackets left right start stop) {key' : Option PossibleKey}
    (hkey : freshKey (p.after rest [left]) (saved p is allowed T) = some key') :
    (stand fuel p is none allowed T (left :: rest)).act
      = some { stand fuel (p.after rest [left]) is key' true (start :: T) rest with
          flowKeys := [none] } := by
  rw [act, take_left h, openFlow, saveKey_stand]
  show ((freshKey (p.after rest [left]) (saved p is allowed T)).bind fun k =>
    some { stand fuel (p.after rest [left]) is k true (start :: T) rest with flowKeys := [none] }) = _
  rw [hkey]
  rfl

/-- Between the brackets nothing is passed. -/
theorem land_right (h : Brackets left right start stop) (hkey : freshKey p key = some key) :
    { stand fuel p is key true T (right :: rest) with flowKeys := [none] : Layout }.land
      = some { stand fuel p is key true T (right :: rest) with flowKeys := [none] } := by
  have hx : AtToken (right :: rest) := by
    cases h <;> exact atToken_char (by decide) rest
  have hpass := passGaps_token hx true true (p.column == 0)
  have hplace := Position.before_append p [] (right :: rest)
  have htoken : { stand fuel p is key true T (right :: rest) with flowKeys := [none] : Layout }.toToken
      = { stand fuel p is key true T (right :: rest) with flowKeys := [none] } := by
    show Layout.mk (passGaps true false true (p.column == 0) (right :: rest)).2 fuel false
      (Position.before (passGaps true false true (p.column == 0) (right :: rest)).2 p (right :: rest))
      T T.length is key [none] (passGaps true false true (p.column == 0) (right :: rest)).1 false = _
    rw [hpass]
    show Layout.mk (right :: rest) fuel false
      (Position.before (right :: rest) p ([] ++ right :: rest)) T T.length is key [none] true false = _
    rw [hplace]
    rfl
  rw [land, htoken]
  show ((freshKey p key).bind fun k =>
    some { stand fuel p is k true T (right :: rest) with flowKeys := [none] }).map _ = _
  rw [hkey]
  rfl

theorem take_right (h : Brackets left right start stop) :
    { stand fuel p is key true T (right :: rest) with flowKeys := [none] : Layout }.take
      = { stand fuel p is key true T (right :: rest) with flowKeys := [none] : Layout }.closeFlow
        stop := by
  cases h with
  | sequence =>
    show tokenAt _ ']' rest = _
    rw [tokenAt, if_neg (by simp), if_neg (by simp [atDocumentMark, stand])]
    rfl
  | mapping =>
    show tokenAt _ '\x7d' rest = _
    rw [tokenAt, if_neg (by simp), if_neg (by simp [atDocumentMark, stand])]
    rfl

theorem act_right (h : Brackets left right start stop) {key' : Option PossibleKey}
    (hkey : freshKey (p.after rest [right]) key = some key') :
    { stand fuel p is key true T (right :: rest) with flowKeys := [none] : Layout }.act
      = some (stand fuel (p.after rest [right]) is key' false (stop :: T) rest) := by
  rw [act, take_right h]
  exact dropStale_stand (T := stop :: T) hkey

/-- **An empty collection at the end of a line.** -/
theorem reaches_brackets (h : Brackets left right start stop) {i n : Nat} {x : List Char}
    (hkey : allowed = true → i ≠ p.column) (hx : AtToken x) :
    ∃ q : Position, q.column = n ∧
      Reaches (stand fuel p (i :: is) none allowed T (left :: right :: '\n' :: (blanks n ++ x)))
        (arrived fuel q (i :: is) (stop :: start :: T) x) := by
  have hpassing : Passing p (saved p (i :: is) allowed T) :=
    saved_passing fun h e => hkey h (Option.some.inj e)
  -- the left bracket may be a possible key; it is given up on the next line at the latest
  obtain ⟨key₁, hfresh₁, hpass₁⟩ := hpassing.exists_freshKey
    (Position.line_le_after p (right :: '\n' :: (blanks n ++ x)) [left])
  obtain ⟨key₂, hfresh₂, hpass₂⟩ := hpass₁.exists_freshKey
    (Position.line_le_after (p.after (right :: '\n' :: (blanks n ++ x)) [left])
      ('\n' :: (blanks n ++ x)) [right])
  refine ⟨_, (after_feed x n).1, .next isOpen_stand ⟨rfl, rfl⟩ (act_left h hfresh₁)
    (land_right h (freshKey_fresh hfresh₁)) (Nat.lt_succ_self _)
    (.one ⟨rfl, rfl⟩ isOpen_stand (act_right h hfresh₂) (land_feed hx hpass₂ n) ?_)⟩
  simp only [arrived, stand, List.length_append, List.length_cons]
  omega

end

end AccessFilter.Yaml.Layout
