import AccessFilter.Proofs.Yaml.Scalar.Plain
import AccessFilter.Yaml.Token.Layout

/-!
# States between two tokens

A step goes on to the next token, closes the collections that end before it and takes the token. The
states in which a token is about to be taken are the ones that can be followed through a written
text: nothing there depends on how the place was reached but the indentations that are open and the
tokens so far.

* `Layout.land`, `Layout.act`   the two halves of a step;
* `Layout.stand`     a state outside of flow collections;
* `Layout.Between`   what a writer puts between two tokens;
* `Layout.land_stand`   where a state lands;
* `Layout.Reaches`   further tokens, each of which takes a part of the text;
* `Layout.run_of_reaches`   the tokens of a text that is followed to its end.
-/

namespace AccessFilter.Yaml.Layout

/-! ## the two halves of a step -/

/-- Go on at the next token and close the collections that end before it. -/
def land (s : Layout) : Option Layout :=
  s.toToken.dropStale.map fun t => t.closeBlocks (some t.column)

def take (s : Layout) : Option Layout :=
  match s.rest with
  | [] => s.endOfText
  | c :: rest => s.tokenAt c rest

/-- Take the token at a place and give up the keys that are stale behind it. -/
def act (s : Layout) : Option Layout := s.take.bind dropStale

theorem step_eq (s : Layout) :
    s.step = s.toToken.dropStale.bind fun r => ((r.closeBlocks (some r.column)).ahead 3).bind fun t =>
      t.take.bind fun v => (v.ahead 0).bind dropStale := by
  refine Option.bind_congr fun r _ => Option.bind_congr fun t _ => ?_
  rw [take]
  cases t.rest with
  | nil => rfl
  | cons c rest => rfl

theorem cut_of_dropStale {s t : Layout} (h : s.dropStale = some t) : t.cut = s.cut := by
  obtain ⟨key, -, h⟩ := Option.bind_eq_some_iff.mp h
  obtain ⟨key', -, h⟩ := Option.bind_eq_some_iff.mp h
  cases h
  rw [withKey]
  split <;> rfl

theorem step_of_act {s t u : Layout} (hland : s.land = some t) (hact : t.act = some u)
    (ht : t.cut = false) (hu : u.cut = false) : s.step = some u := by
  obtain ⟨r, hr, rfl⟩ := Option.map_eq_some_iff.mp hland
  obtain ⟨v, hv, hstale⟩ := Option.bind_eq_some_iff.mp hact
  have hahead : (r.closeBlocks (some r.column)).ahead 3 = some (r.closeBlocks (some r.column)) := by
    rw [ahead, ht, Bool.false_and]
    rfl
  have hbehind : v.ahead 0 = some v := by
    rw [ahead, ← cut_of_dropStale hstale, hu, Bool.false_and]
    rfl
  rw [step_eq, hr]
  show (((r.closeBlocks (some r.column)).ahead 3).bind fun t =>
    t.take.bind fun v => (v.ahead 0).bind dropStale) = _
  rw [hahead]
  show ((r.closeBlocks (some r.column)).take.bind fun v => (v.ahead 0).bind dropStale) = _
  rw [hv]
  show (v.ahead 0).bind dropStale = _
  rw [hbehind]
  exact hstale

/-! ## states outside of flow collections -/

/-- A state outside of flow collections, in a text that is not cut. -/
def stand (fuel : Nat) (p : Position) (indents : List Nat) (key : Option PossibleKey)
    (allowed : Bool) (tokens : List Token) (rest : List Char) : Layout where
  rest := rest
  fuel := fuel
  cut := false
  position := p
  tokens := tokens
  count := tokens.length
  indents := indents
  blockKey := key
  keyAllowed := allowed

variable {fuel : Nat} {p : Position} {is : List Nat} {key : Option PossibleKey} {allowed : Bool}
  {T : List Token} {rest : List Char}

theorem moveTo_stand (cs : List Char) :
    (stand fuel p is key allowed T (cs ++ rest)).moveTo rest
      = stand fuel (p.after rest cs) is key allowed T rest := by
  rw [moveTo]
  show Layout.mk _ _ _ (Position.before rest p (cs ++ rest)) _ _ _ _ _ _ _ = _
  rw [Position.before_append]
  rfl

theorem freshKey_fresh {p : Position} {key key' : Option PossibleKey}
    (h : freshKey p key = some key') : freshKey p key' = some key' := by
  cases key with
  | none =>
    cases h
    rfl
  | some k =>
    rw [freshKey] at h
    split at h
    · split at h
      · cases h
      · cases h
        rfl
    · next hstale =>
      cases h
      rw [freshKey, if_neg hstale]

theorem dropStale_stand {key' : Option PossibleKey} (h : freshKey p key = some key') :
    (stand fuel p is key allowed T rest).dropStale = some (stand fuel p is key' allowed T rest) := by
  show ((freshKey p key).bind fun k => (freshKey p k).bind fun k' =>
    some (stand fuel p is k' allowed T rest)) = _
  rw [h]
  show ((freshKey p key').bind fun k' => some (stand fuel p is k' allowed T rest)) = _
  rw [freshKey_fresh h]
  rfl

theorem closeBlocks_stand (column : Nat) :
    (stand fuel p is key allowed T rest).closeBlocks (some column)
      = stand fuel p (is.drop (deeper (some column) is)) key allowed
          (List.replicate (deeper (some column) is) Token.blockEnd ++ T) rest := by
  rw [closeBlocks, if_neg (show ¬(stand fuel p is key allowed T rest).inFlow = true from nofun)]
  show Layout.mk _ _ _ _ _ (T.length + deeper (some column) is) _ _ _ _ _ = Layout.mk _ _ _ _ _
    ((List.replicate (deeper (some column) is) Token.blockEnd ++ T).length) _ _ _ _ _
  rw [List.length_append, List.length_replicate, Nat.add_comm]
  rfl

theorem forall_head?_cons {P : Nat → Prop} {i : Nat} (h : P i) :
    ∀ j, (i :: is).head? = some j → P j := by
  rintro _ ⟨⟩
  exact h

/-- How many collections end before a column when those outside are not indented more. -/
theorem deeper_eq_zero {column : Nat} (h : ∀ i, is.head? = some i → i ≤ column) :
    deeper (some column) is = 0 := by
  cases is with
  | nil => rfl
  | cons i is =>
    have hi := h i rfl
    rw [deeper, List.takeWhile_cons_of_neg (by simpa using hi)]
    rfl

theorem deeper_cons {column i : Nat} (h : column < i) :
    deeper (some column) (i :: is) = deeper (some column) is + 1 := by
  rw [deeper, List.takeWhile_cons_of_pos (by simpa using h), List.length_cons, deeper]

/-! ## from one token to the next -/

/-- What a writer puts between two tokens, and whether it ends a line: nothing, a blank, or a line
feed and the indentation of the next line. -/
inductive Between : (crosses : Bool) → List Char → Prop
  | nothing : Between false []
  | blank : Between false [' ']
  | feed (n : Nat) : Between true ('\n' :: blanks n)

theorem passGaps_token {x : List Char} (hx : AtToken x) (flow allowed lineStart : Bool) :
    passGaps flow false allowed lineStart x = (allowed, x) := by
  cases x with
  | nil => rfl
  | cons c x =>
    obtain ⟨hgap, hcomment, hmark⟩ := hx c rfl
    obtain ⟨hblank, htab, hbreak⟩ := (isGap_eq_false_iff c).mp hgap
    have hr : c ≠ '\r' := ne_of_isBreak_false hbreak (by decide)
    rw [passGaps, hbreak, if_neg Bool.false_ne_true, if_neg Bool.false_ne_true,
      if_neg (by simp [hmark]), if_neg (by simp [hblank, htab]), if_neg hcomment]
    exact fun _ h _ => hr h

theorem passGaps_blanks {x : List Char} (hx : AtToken x) (allowed lineStart : Bool) (n : Nat) :
    passGaps false false allowed lineStart (blanks n ++ x) = (allowed, x) := by
  induction n generalizing lineStart with
  | zero => exact passGaps_token hx false allowed lineStart
  | succ n ih =>
    show passGaps false false allowed lineStart (' ' :: (blanks n ++ x)) = _
    rw [passGaps, isBreak_blank, if_neg Bool.false_ne_true, if_neg Bool.false_ne_true,
      if_neg (by simp), if_pos (by simp), ih]
    exact nofun

theorem passGaps_between {x : List Char} (hx : AtToken x) {crosses : Bool} {g : List Char}
    (hg : Between crosses g) (allowed lineStart : Bool) :
    passGaps false false allowed lineStart (g ++ x) = (allowed || crosses, x) := by
  cases hg with
  | nothing => rw [List.nil_append, passGaps_token hx, Bool.or_false]
  | blank => rw [show [' '] ++ x = blanks 1 ++ x from rfl, passGaps_blanks hx, Bool.or_false]
  | feed n =>
    rw [List.cons_append, passGaps, if_pos isBreak_feed, passGaps_blanks hx]
    · rfl
    · exact nofun

/-- Where a state lands: with the collections closed that end before the next token. -/
theorem land_stand {x : List Char} (hx : AtToken x) {crosses : Bool} {g : List Char}
    (hg : Between crosses g) {key' : Option PossibleKey}
    (hkey : freshKey (p.after x g) key = some key') {n : Nat}
    (hn : deeper (some (p.after x g).column) is = n) :
    (stand fuel p is key allowed T (g ++ x)).land
      = some (stand fuel (p.after x g) (is.drop n) key' (allowed || crosses)
          (List.replicate n Token.blockEnd ++ T) x) := by
  have htoken : (stand fuel p is key allowed T (g ++ x)).toToken
      = stand fuel (p.after x g) is key (allowed || crosses) T x := by
    have hpass : passGaps (stand fuel p is key allowed T (g ++ x)).inFlow false
        (stand fuel p is key allowed T (g ++ x)).keyAllowed
        ((stand fuel p is key allowed T (g ++ x)).column == 0)
        (stand fuel p is key allowed T (g ++ x)).rest = (allowed || crosses, x) :=
      passGaps_between hx hg allowed _
    rw [toToken, hpass]
    dsimp only
    rw [moveTo_stand]
    rfl
  rw [land, htoken, dropStale_stand hkey]
  subst hn
  exact congrArg some (closeBlocks_stand _)

/-! ## where a state lands -/

/-- A state at the next token when no possible key is left: the collections that end before it are
closed. -/
def arrived (fuel : Nat) (p : Position) (is : List Nat) (T : List Token) (x : List Char) : Layout :=
  stand fuel p (is.drop (deeper (some p.column) is)) none true
    (List.replicate (deeper (some p.column) is) Token.blockEnd ++ T) x

/-- A collection that is indented more than the next token ends there. -/
theorem arrived_cons {i : Nat} (hi : p.column < i) (x : List Char) :
    arrived fuel p (i :: is) T x = arrived fuel p is (Token.blockEnd :: T) x := by
  rw [arrived, deeper_cons hi, arrived, List.replicate_succ', List.append_assoc]
  rfl

theorem arrived_eq_stand (h : ∀ i, is.head? = some i → i ≤ p.column) (x : List Char) :
    arrived fuel p is T x = stand fuel p is none true T x := by
  rw [arrived, deeper_eq_zero h]
  rfl

/-- A possible key that is not required is given up on a further line. -/
theorem freshKey_of_line {k : PossibleKey} (hk : k.required = false)
    (hline : k.position.line < p.line) : freshKey p (some k) = some none := by
  have hstale : k.isStale p = true := by
    rw [PossibleKey.isStale, decide_eq_true hline, Bool.true_or]
  rw [freshKey, if_pos hstale, hk, if_neg Bool.false_ne_true]

/-- A possible key on the line is kept up to some length. -/
theorem freshKey_of_near {k : PossibleKey} (hline : p.line ≤ k.position.line)
    (hindex : p.index ≤ k.position.index + 1024) : freshKey p (some k) = some (some k) := by
  have hstale : k.isStale p = false := by
    rw [PossibleKey.isStale, decide_eq_false (Nat.not_lt.mpr hline),
      decide_eq_false (Nat.not_lt.mpr hindex)]
    rfl
  rw [freshKey, hstale, if_neg Bool.false_ne_true]

theorem after_feed (x : List Char) (n : Nat) :
    (p.after x ('\n' :: blanks n)).column = n ∧ p.line < (p.after x ('\n' :: blanks n)).line :=
  Position.after_indentation p x [] n isBreak_feed (by decide)

/-- A key that is given up on a further line. -/
def Passing (p : Position) (key : Option PossibleKey) : Prop :=
  ∀ k, key = some k → k.required = false ∧ k.position.line ≤ p.line

theorem Passing.none : Passing p none := nofun

theorem Passing.freshKey (h : Passing p key) {q : Position} (hq : p.line < q.line) :
    freshKey q key = some Option.none := by
  cases key with
  | none => rfl
  | some k => exact freshKey_of_line (h k rfl).1 (Nat.lt_of_le_of_lt (h k rfl).2 hq)

theorem Passing.exists_freshKey (h : Passing p key) {q : Position} (hq : p.line ≤ q.line) :
    ∃ key', Layout.freshKey q key = some key' ∧ Passing q key' := by
  cases key with
  | none => exact ⟨_, rfl, .none⟩
  | some k =>
    obtain ⟨hrequired, hline⟩ := h k rfl
    rw [Layout.freshKey]
    split
    · rw [hrequired]
      exact ⟨_, rfl, .none⟩
    · refine ⟨_, rfl, fun k' hk' => ?_⟩
      cases hk'
      exact ⟨hrequired, Nat.le_trans hline hq⟩

theorem land_token {x : List Char} (hx : AtToken x) :
    (stand fuel p is none true T x).land = some (arrived fuel p is T x) :=
  land_stand (g := []) hx .nothing rfl rfl

theorem land_feed {x : List Char} (hx : AtToken x) (hkey : Passing p key) (n : Nat) :
    (stand fuel p is key allowed T ('\n' :: (blanks n ++ x))).land
      = some (arrived fuel (p.after x ('\n' :: blanks n)) is T x) := by
  have hland : (stand fuel p is key allowed T ('\n' :: blanks n ++ x)).land = _ :=
    land_stand hx (Between.feed n) (hkey.freshKey (after_feed x n).2) rfl
  rw [Bool.or_true] at hland
  exact hland

/-! ## many tokens -/

/-- A text that is neither cut nor at its end. -/
structure IsOpen (s : Layout) : Prop where
  cut : s.cut = false
  ended : s.ended = false

theorem isOpen_stand : IsOpen (stand fuel p is key allowed T rest) := ⟨rfl, rfl⟩

/-- Further tokens, each of which takes a part of the text. -/
inductive Reaches : Layout → Layout → Prop
  | refl (s : Layout) : Reaches s s
  | next {s t u v : Layout} (hs : IsOpen s) (ht : IsOpen t) (hact : s.act = some t)
      (hland : t.land = some u) (hless : u.rest.length < s.rest.length) (h : Reaches u v) :
      Reaches s v

theorem Reaches.trans {s t u : Layout} (h : Reaches s t) (h' : Reaches t u) : Reaches s u := by
  induction h with
  | refl => exact h'
  | next hs ht hact hland hless _ ih => exact .next hs ht hact hland hless (ih h')

theorem Reaches.one {s t u : Layout} (hs : IsOpen s) (ht : IsOpen t) (hact : s.act = some t)
    (hland : t.land = some u) (hless : u.rest.length < s.rest.length) : Reaches s u :=
  .next hs ht hact hland hless (.refl u)

/-- Further tokens, the last of which leaves a state that has not gone on to the next token. -/
def Acts (s t : Layout) : Prop :=
  ∃ r, Reaches s r ∧ IsOpen r ∧ r.act = some t ∧ t.rest.length < r.rest.length

theorem Reaches.acts {s t u : Layout} (h : Reaches s t) (h' : Acts t u) : Acts s u := by
  obtain ⟨r, hr, hact⟩ := h'
  exact ⟨r, h.trans hr, hact⟩

theorem Acts.of_act {s t : Layout} (hs : IsOpen s) (hact : s.act = some t)
    (hless : t.rest.length < s.rest.length) : Acts s t := ⟨s, .refl s, hs, hact, hless⟩

theorem Acts.land {s t u : Layout} (h : Acts s t) (ht : IsOpen t) (hland : t.land = some u)
    (hle : u.rest.length ≤ t.rest.length) : Reaches s u := by
  obtain ⟨r, hr, hopen, hact, hless⟩ := h
  exact hr.trans (.one hopen ht hact hland (Nat.lt_of_le_of_lt hle hless))

/-- **The tokens of a text that is followed to its end.** -/
theorem run_of_reaches {s t e : Layout} (h : Reaches s t) (ht : IsOpen t) (hact : t.act = some e)
    (hcut : e.cut = false) (hended : e.ended = true) {s₀ : Layout} (hs₀ : s₀.ended = false)
    (hland : s₀.land = some s) {n : Nat} (hn : s.rest.length + 2 ≤ n) :
    run n s₀ = e.tokens.reverse := by
  -- every step takes a part of the text, so the steps outlast the tokens
  induction h generalizing s₀ n with
  | refl s =>
    obtain ⟨n, rfl⟩ : ∃ m, n = m + 2 := ⟨n - 2, by omega⟩
    rw [run, hs₀, if_neg Bool.false_ne_true, step_of_act hland hact ht.cut hcut]
    show run (n + 1) e = _
    rw [run, if_pos hended]
  | next hs hu hact' hland' hless _ ih =>
    obtain ⟨n, rfl⟩ : ∃ m, n = m + 1 := ⟨n - 1, by omega⟩
    rw [run, hs₀, if_neg Bool.false_ne_true, step_of_act hland hact' hs.cut hu.cut]
    exact ih ht hact hu.ended hland' (by omega)

/-- The end of a text at which one block collection is open. -/
theorem act_endOfText {i : Nat} (hp : p.column = 0) :
    (stand fuel p [i] none true T []).act
      = some { stand fuel p [] none false (.streamEnd :: .blockEnd :: T) [] with ended := true } := by
  show (((if p.column = 0 then stand fuel p [i] none true T [] else _ : Layout).closeBlocks none
    |>.dropKey.bind fun s => some { s.push .streamEnd with keyAllowed := false, ended := true }).bind
      dropStale) = _
  rw [if_pos hp]
  rfl

end AccessFilter.Yaml.Layout
