import AccessFilter.Proofs.Sql.Normal
import AccessFilter.Proofs.Sql.Rendered

/-!
# Reading a fragment back

The grammar of fragments has three levels: `OR` joins what `AND` joins, and `AND` joins operands. An
operand is a test of a column, a constant, `NOT` and an operand, or anything in parentheses.

* `Joiner`              the two joining words;
* `readTest`            a constant or the test of a column;
* `readOperand`, `readChain`   an operand, and operands or chains joined by one of the two words;
* `Fragment.read`       the predicate of a fragment, its values put at the placeholders;
* `readOperand_tokens`  the tokens of a predicate are one operand, its normal form;
* `fragment_means_predicate`   a fragment means the predicate it was rendered from.
-/

namespace AccessFilter

namespace Sql

/-! ## the grammar -/

/-- What joins the parts of a chain. -/
inductive Joiner where
  | and
  | or

namespace Joiner

def keyword : Joiner → Keyword
  | .and => .and
  | .or => .or

/-- A chain as one predicate; a chain of one is its part. -/
def group : Joiner → List Predicate → Predicate
  | .and => .conjunction
  | .or => .disjunction

end Joiner

/-- What follows the first value of a list, up to the closing parenthesis. -/
def readMore : List (Token Value) → Option (List Value × List (Token Value))
  | .word .closing :: ts => some ([], ts)
  | .word .comma :: .slot v :: ts => (readMore ts).map fun r => (v :: r.1, r.2)
  | _ => none

def readList : List (Token Value) → Option (List Value × List (Token Value))
  | .word .closing :: ts => some ([], ts)
  | .slot v :: ts => (readMore ts).map fun r => (v :: r.1, r.2)
  | _ => none

def readColumnTest (c : Column) : List (Token Value) → Option (Predicate × List (Token Value))
  | .word (.comparison op) :: .slot v :: ts => some (.compare c op v, ts)
  | .word (.keyword .is) :: .word (.keyword .null) :: ts => some (.isNull c false, ts)
  | .word (.keyword .is) :: .word (.keyword .not) :: .word (.keyword .null) :: ts =>
    some (.isNull c true, ts)
  | .word (.keyword .member) :: .word .opening :: ts =>
    (readList ts).map fun r => (.inList c r.1, r.2)
  | _ => none

def readTest : List (Token Value) → Option (Predicate × List (Token Value))
  | .word (.keyword .true) :: ts => some (.const true, ts)
  | .word (.keyword .false) :: ts => some (.const false, ts)
  | .word (.identifier table) :: .word .dot :: .word (.identifier name) :: ts =>
    readColumnTest ⟨table, name⟩ ts
  | _ => none

mutual

/-- An operand: `NOT` and an operand, a chain in parentheses, or a test. -/
def readOperand : Nat → List (Token Value) → Option (Predicate × List (Token Value))
  | 0, _ => none
  | n + 1, .word (.keyword .not) :: ts => do
    let (p, ts) ← readOperand n ts
    return (.not p, ts)
  | n + 1, .word .opening :: ts => do
    let (p, ts) ← readChain n .or ts
    match ts with
    | .word .closing :: ts => return (p, ts)
    | _ => none
  | _ + 1, ts => readTest ts

/-- A part of a chain: `AND` joins operands and `OR` joins chains of `AND`. -/
def readPart : Nat → Joiner → List (Token Value) → Option (Predicate × List (Token Value))
  | 0, _, _ => none
  | n + 1, .and, ts => readOperand n ts
  | n + 1, .or, ts => readChain n .and ts

/-- A chain: one part, and further parts as long as the joining word follows. -/
def readChain : Nat → Joiner → List (Token Value) → Option (Predicate × List (Token Value))
  | 0, _, _ => none
  | n + 1, j, ts => do
    let (p, ts) ← readPart n j ts
    let (ps, ts) ← readParts n j ts
    return (j.group (p :: ps), ts)

def readParts : Nat → Joiner → List (Token Value) → Option (List Predicate × List (Token Value))
  | 0, _, _ => none
  | n + 1, j, .word (.keyword k) :: ts =>
    if k = j.keyword then do
      let (p, ts) ← readPart n j ts
      let (ps, ts) ← readParts n j ts
      return (p :: ps, ts)
    else some ([], .word (.keyword k) :: ts)
  | _ + 1, _, ts => some ([], ts)

end

/-- How deep the reading of some tokens can go. -/
def depth (ts : List (Token Value)) : Nat := 6 * ts.length + 6

end Sql

open Sql

/-- **The predicate of a fragment**: its text is cut into words, the bound values are put at the
placeholders, and the whole is read as one chain. -/
def Fragment.read (f : Fragment) : Option Predicate := do
  let marks ← scan f.sql.toList
  let ts ← fill f.params 0 marks
  match readChain (depth ts) .or ts with
  | some (p, []) => some p
  | _ => none

/-! ## reading the tokens of a predicate -/

namespace Sql

theorem readList_tokens (v : Value) (vs : List Value) (bound : Nat) (rest : List (Token Value)) :
    readList (listTokens (fun _ v => v) bound (v :: vs) ++ .word .closing :: rest)
      = some (v :: vs, rest) := by
  induction vs generalizing v bound with
  | nil => rfl
  | cons w ws ih =>
    obtain ⟨ts, hts⟩ : ∃ ts, listTokens (fun _ v => v) (bound + 1) (w :: ws) = .slot w :: ts := by
      cases ws <;> exact ⟨_, rfl⟩
    have hlist : listTokens (fun _ v => v) bound (v :: w :: ws)
        = .slot v :: .word .comma :: .slot w :: ts := by
      rw [listTokens_cons_cons, hts]
      rfl
    have ih' := ih w (bound + 1)
    rw [hts] at ih'
    have hmore : readMore (.word .comma :: .slot w :: ts ++ .word .closing :: rest)
        = some (w :: ws, rest) := ih'
    rw [hlist, List.cons_append, readList, hmore]
    rfl

theorem readColumnTest_list (c : Column) (vs : List Value) (bound : Nat)
    (rest : List (Token Value)) :
    readColumnTest c (.word (.keyword .member) :: .word .opening
        :: (listTokens (fun _ v => v) bound vs ++ .word .closing :: rest))
      = some (.inList c vs, rest) := by
  cases vs with
  | nil => rfl
  | cons v vs => rw [readColumnTest, readList_tokens]; rfl

/-- Reading the tokens of a predicate as an operand gives its normal form and stops behind them. -/
def ReadsBack (p : Predicate) : Prop :=
  ∀ bound n rest, 6 * (p.tokens (fun _ v => v) bound).length ≤ n →
    readOperand n (p.tokens (fun _ v => v) bound ++ rest) = some (p.normal, rest)

theorem readParts_stop (n : Nat) (j : Joiner) (rest : List (Token Value))
    (h : ∀ us, rest ≠ .word (.keyword j.keyword) :: us) :
    readParts (n + 1) j rest = some ([], rest) := by
  rcases rest with _ | ⟨(_ | _ | _ | _ | _ | k | _) | v, us⟩
  case cons.word.keyword =>
    have hk : k ≠ j.keyword := by
      rintro rfl
      exact h us rfl
    rw [readParts, if_neg hk]
  all_goals rfl

/-- An operand is a part of a chain, if no `AND` follows where a chain of `OR` is read. -/
theorem readPart_of_readsBack {p : Predicate} (hp : ReadsBack p) (j : Joiner) (bound n : Nat)
    (rest : List (Token Value)) (hn : 6 * (p.tokens (fun _ v => v) bound).length + 3 ≤ n)
    (hrest : j = .or → ∀ us, rest ≠ .word (.keyword .and) :: us) :
    readPart n j (p.tokens (fun _ v => v) bound ++ rest) = some (p.normal, rest) := by
  obtain ⟨n, rfl⟩ : ∃ m, n = m + 3 := ⟨n - 3, by omega⟩
  cases j with
  | and => exact hp bound (n + 2) rest (by omega)
  | or =>
    have hpart : readPart (n + 1) .and (p.tokens (fun _ v => v) bound ++ rest)
        = some (p.normal, rest) := hp bound n rest (by omega)
    rw [readPart, readChain, hpart]
    show (readParts (n + 1) .and rest).bind _ = _
    rw [readParts_stop n .and rest (hrest rfl)]
    rfl

theorem joinTokens_cons {β : Type} (k : Keyword) (t : List (Token β)) (ts : List (List (Token β))) :
    joinTokens k (t :: ts) = t ++ ts.flatMap fun u => words [.keyword k] ++ u := by
  induction ts generalizing t with
  | nil => simp [joinTokens]
  | cons u us ih =>
    rw [joinTokens_cons_cons, ih, List.flatMap_cons, List.append_assoc, List.append_assoc]

/-- The reading of a chain stops at the end or at a closing parenthesis. -/
def Ends (rest : List (Token Value)) : Prop := ∀ t ∈ rest.head?, t = .word .closing

theorem Ends.ne_keyword {rest : List (Token Value)} (h : Ends rest) (k : Keyword)
    (us : List (Token Value)) : rest ≠ .word (.keyword k) :: us := by
  rintro rfl
  cases h _ rfl

/-- The parts of a chain behind the first one, each after its joining word. -/
def tailTokens (k : Keyword) (ts : List (List (Token Value))) : List (Token Value) :=
  ts.flatMap fun t => words [.keyword k] ++ t

theorem tailTokens_cons (k : Keyword) (t : List (Token Value)) (ts : List (List (Token Value))) :
    tailTokens k (t :: ts) = .word (.keyword k) :: (t ++ tailTokens k ts) := by
  rw [tailTokens, List.flatMap_cons, List.append_assoc]
  rfl

/-- Behind a part of a chain of `OR` stands no `AND`. -/
theorem tailTokens_ne_and {j : Joiner} (hj : j = .or) (ts : List (List (Token Value)))
    {rest : List (Token Value)} (hrest : Ends rest) (us : List (Token Value)) :
    tailTokens j.keyword ts ++ rest ≠ .word (.keyword .and) :: us := by
  subst hj
  cases ts with
  | nil => exact hrest.ne_keyword .and us
  | cons t ts =>
    rw [tailTokens_cons]
    exact nofun

theorem readParts_tokens (j : Joiner) (ps : List Predicate) (hps : ∀ p ∈ ps, ReadsBack p)
    (rest : List (Token Value)) (hrest : Ends rest) (bound n : Nat)
    (hn : 6 * (tailTokens j.keyword (Predicate.tokensAll (fun _ v => v) bound ps)).length < n) :
    readParts n j (tailTokens j.keyword (Predicate.tokensAll (fun _ v => v) bound ps) ++ rest)
      = some (Predicate.normalAll ps, rest) := by
  -- every part spends one unit of fuel here and brings six for each of its tokens
  induction ps generalizing bound n with
  | nil =>
    obtain ⟨n, rfl⟩ : ∃ m, n = m + 1 := ⟨n - 1, by omega⟩
    exact readParts_stop n j rest (hrest.ne_keyword j.keyword)
  | cons p ps ih =>
    obtain ⟨n, rfl⟩ : ∃ m, n = m + 1 := ⟨n - 1, by omega⟩
    rw [Predicate.tokensAll, tailTokens_cons] at hn ⊢
    rw [List.length_cons, List.length_append] at hn
    have hpart := readPart_of_readsBack (hps p List.mem_cons_self) j bound n _ (by omega)
      fun hj => tailTokens_ne_and hj
        (Predicate.tokensAll (fun _ v => v) (bound + p.values.length) ps) hrest
    have hparts := ih (fun q hq => hps q (List.mem_cons_of_mem p hq)) (bound + p.values.length) n
      (by omega)
    rw [List.cons_append, List.append_assoc, readParts, if_pos rfl, hpart]
    show (readParts n j _).bind _ = _
    rw [hparts]
    rfl

/-- **A chain is read back**: its parts in normal form, as one group. -/
theorem readChain_tokens (j : Joiner) (p : Predicate) (ps : List Predicate)
    (hps : ∀ q ∈ p :: ps, ReadsBack q) (rest : List (Token Value)) (hrest : Ends rest)
    (bound n : Nat)
    (hn : 6 * (joinTokens j.keyword
      (Predicate.tokensAll (fun _ v => v) bound (p :: ps))).length + 4 ≤ n) :
    readChain n j
        (joinTokens j.keyword (Predicate.tokensAll (fun _ v => v) bound (p :: ps)) ++ rest)
      = some (j.group (Predicate.normalAll (p :: ps)), rest) := by
  obtain ⟨n, rfl⟩ : ∃ m, n = m + 1 := ⟨n - 1, by omega⟩
  rw [Predicate.tokensAll, joinTokens_cons, ← tailTokens] at hn ⊢
  rw [List.length_append] at hn
  have hpart := readPart_of_readsBack (hps p List.mem_cons_self) j bound n _ (by omega)
    fun hj => tailTokens_ne_and hj
      (Predicate.tokensAll (fun _ v => v) (bound + p.values.length) ps) hrest
  have hparts := readParts_tokens j ps (fun q hq => hps q (List.mem_cons_of_mem p hq)) rest hrest
    (bound + p.values.length) n (by omega)
  rw [List.append_assoc, readChain, hpart]
  show (readParts n j _).bind _ = _
  rw [hparts]
  rfl

/-- What stands in parentheses is read as one chain of `OR`; a chain of `AND` is its only part. -/
theorem readChain_or_tokens (j : Joiner) (p : Predicate) (ps : List Predicate)
    (hps : ∀ q ∈ p :: ps, ReadsBack q) (rest : List (Token Value)) (hrest : Ends rest)
    (bound n : Nat)
    (hn : 6 * (joinTokens j.keyword
      (Predicate.tokensAll (fun _ v => v) bound (p :: ps))).length + 6 ≤ n) :
    readChain n .or
        (joinTokens j.keyword (Predicate.tokensAll (fun _ v => v) bound (p :: ps)) ++ rest)
      = some (j.group (Predicate.normalAll (p :: ps)), rest) := by
  cases j with
  | or => exact readChain_tokens .or p ps hps rest hrest bound n (by omega)
  | and =>
    obtain ⟨n, rfl⟩ : ∃ m, n = m + 2 := ⟨n - 2, by omega⟩
    have hpart : readPart (n + 1) .or (joinTokens .and
          (Predicate.tokensAll (fun _ v => v) bound (p :: ps)) ++ rest)
        = some (.conjunction (Predicate.normalAll (p :: ps)), rest) :=
      readChain_tokens .and p ps hps rest hrest bound n (by omega)
    rw [Joiner.keyword, readChain, hpart]
    show (readParts (n + 1) .or rest).bind _ = _
    rw [readParts_stop n .or rest (hrest.ne_keyword _)]
    rfl

theorem ends_closing (rest : List (Token Value)) : Ends (.word .closing :: rest) :=
  fun _ h => (Option.some.inj h).symm

/-- A chain in parentheses is one operand. -/
theorem readOperand_parentheses (j : Joiner) (p : Predicate) (ps : List Predicate)
    (hps : ∀ q ∈ p :: ps, ReadsBack q) (rest : List (Token Value)) (bound n : Nat)
    (hn : 6 * (joinTokens j.keyword
      (Predicate.tokensAll (fun _ v => v) bound (p :: ps))).length + 7 ≤ n) :
    readOperand n (.word .opening :: (joinTokens j.keyword
        (Predicate.tokensAll (fun _ v => v) bound (p :: ps)) ++ .word .closing :: rest))
      = some (j.group (Predicate.normalAll (p :: ps)), rest) := by
  obtain ⟨n, rfl⟩ : ∃ m, n = m + 1 := ⟨n - 1, by omega⟩
  rw [readOperand, readChain_or_tokens j p ps hps _ (ends_closing rest) bound n (by omega)]
  rfl

theorem readOperand_group (j : Joiner) (empty : Keyword) (ps : List Predicate)
    (hps : ∀ p ∈ ps, ReadsBack p) (hempty : ∀ n ts,
      readOperand (n + 1) (.word (.keyword empty) :: ts) = some (j.group [], ts))
    (bound n : Nat) (rest : List (Token Value))
    (hn : 6 * (groupTokens j.keyword empty
      (Predicate.tokensAll (fun _ v => v) bound ps)).length ≤ n) :
    readOperand n (groupTokens j.keyword empty (Predicate.tokensAll (fun _ v => v) bound ps)
        ++ rest) = some (j.group (Predicate.normalAll ps), rest) := by
  rcases ps with _ | ⟨p, _ | ⟨q, ps⟩⟩
  · obtain ⟨n, rfl⟩ : ∃ m, n = m + 1 := by
      rw [Predicate.tokensAll, groupTokens, words, List.map_cons, List.length_cons] at hn
      exact ⟨n - 1, by omega⟩
    exact hempty n rest
  · have hone : j.group (Predicate.normalAll [p]) = p.normal := by cases j <;> rfl
    rw [hone]
    exact hps p List.mem_cons_self bound n rest hn
  · have hgroup : groupTokens j.keyword empty
          (Predicate.tokensAll (fun _ v => v) bound (p :: q :: ps))
        = .word .opening :: (joinTokens j.keyword
          (Predicate.tokensAll (fun _ v => v) bound (p :: q :: ps)) ++ [.word .closing]) := rfl
    rw [hgroup] at hn ⊢
    rw [List.length_cons, List.length_append, List.length_singleton] at hn
    rw [List.cons_append, List.append_assoc]
    exact readOperand_parentheses j p (q :: ps) hps rest bound n (by omega)

theorem readsBack_of_readTest {p : Predicate}
    (hne : ∀ bound, 0 < (p.tokens (fun _ v => v) bound).length)
    (h : ∀ bound n rest,
      readOperand (n + 1) (p.tokens (fun _ v => v) bound ++ rest) = some (p.normal, rest)) :
    ReadsBack p := by
  intro bound n rest hn
  have hpos := hne bound
  obtain ⟨n, rfl⟩ : ∃ m, n = m + 1 := ⟨n - 1, by omega⟩
  exact h bound n rest

theorem readOperand_not {n : Nat} {ts rest : List (Token Value)} {p : Predicate}
    (h : readOperand n ts = some (p, rest)) :
    readOperand (n + 1) (.word (.keyword .not) :: ts) = some (.not p, rest) := by
  rw [readOperand, h]
  rfl

theorem readsBack_not {inner : Predicate} (hinner : ReadsBack inner) : ReadsBack (.not inner) := by
  intro bound n rest hn
  rw [Predicate.tokens] at hn ⊢
  split at hn
  · next hg =>
    have hlen : (words [.keyword .not] : List (Token Value)).length = 1 := rfl
    rw [List.length_append] at hn
    obtain ⟨n, rfl⟩ : ∃ m, n = m + 1 := ⟨n - 1, by omega⟩
    rw [if_pos hg, List.append_assoc]
    exact readOperand_not (hinner bound n rest (by omega))
  · next hg =>
    have hlen : (words [.keyword .not, .opening] : List (Token Value)).length = 2 := rfl
    have hlen' : (words [.closing] : List (Token Value)).length = 1 := rfl
    rw [List.length_append, List.length_append] at hn
    obtain ⟨n, rfl⟩ : ∃ m, n = m + 1 := ⟨n - 1, by omega⟩
    have hone : joinTokens Joiner.or.keyword (Predicate.tokensAll (fun _ v => v) bound [inner])
        = inner.tokens (fun _ v => v) bound := rfl
    have h := readOperand_parentheses .or inner [] (by simpa using hinner) rest bound n
      (by rw [hone]; omega)
    rw [if_neg hg, List.append_assoc, List.append_assoc]
    exact readOperand_not h

mutual

/-- **The tokens of a predicate are one operand**, its normal form, whatever follows them. -/
theorem readOperand_tokens : (p : Predicate) → ReadsBack p
  | .const true => readsBack_of_readTest (fun _ => Nat.one_pos) fun _ _ _ => rfl
  | .const false => readsBack_of_readTest (fun _ => Nat.one_pos) fun _ _ _ => rfl
  | .compare _ _ _ => readsBack_of_readTest (fun _ => Nat.succ_pos _) fun _ _ _ => rfl
  | .isNull _ false => readsBack_of_readTest (fun _ => Nat.succ_pos _) fun _ _ _ => rfl
  | .isNull _ true => readsBack_of_readTest (fun _ => Nat.succ_pos _) fun _ _ _ => rfl
  | .inList c vs => readsBack_of_readTest (fun _ => Nat.succ_pos _) fun bound n rest => by
    rw [Predicate.tokens, List.append_assoc, List.append_assoc, List.append_assoc]
    exact readColumnTest_list c vs bound rest
  | .and parts => fun bound n rest hn =>
    readOperand_group .and .true parts (readOperand_tokensAll parts) (fun _ _ => rfl)
      bound n rest hn
  | .or parts => fun bound n rest hn =>
    readOperand_group .or .false parts (readOperand_tokensAll parts) (fun _ _ => rfl)
      bound n rest hn
  | .not inner => readsBack_not (readOperand_tokens inner)

theorem readOperand_tokensAll : (ps : List Predicate) → ∀ p ∈ ps, ReadsBack p
  | [] => nofun
  | p :: ps => List.forall_mem_cons.mpr ⟨readOperand_tokens p, readOperand_tokensAll ps⟩

end

end Sql

/-! ## reading a fragment -/

theorem Fragment.read_render (style : Placeholder) (p : Predicate) :
    (p.fragment style).read = some p.normal := by
  have hread := readChain_or_tokens .or p [] (by simpa using readOperand_tokens p) [] nofun 0
    (depth (p.tokens (fun _ v => v) 0)) (Nat.le_refl _)
  have hone : joinTokens Joiner.or.keyword (Predicate.tokensAll (fun _ v => v) 0 [p]) ++ []
      = p.tokens (fun _ v => v) 0 := List.append_nil _
  rw [hone] at hread
  rw [read, Predicate.fragment, String.toList_ofList, p.scan_render style]
  show (fill p.values 0 _).bind _ = _
  rw [p.fill_tokens style, Option.bind_some, hread]
  rfl

/-- **A fragment means the predicate it was rendered from.** In both styles, and whatever its names
and values are, its text with its bound values is read back as the normal form of the predicate;
two predicates have the same fragment exactly when they have the same normal form; and the normal
form has the truth of the predicate on every row. -/
theorem fragment_means_predicate :
    (∀ (style : Placeholder) (p : Predicate), (p.fragment style).read = some p.normal) ∧
    (∀ (style : Placeholder) (p q : Predicate),
      p.fragment style = q.fragment style ↔ p.normal = q.normal) ∧
    (∀ (p : Predicate) (row : Row), p.normal.evaluate row = p.evaluate row) := by
  refine ⟨Fragment.read_render, ?_, fun p row => p.evaluate_normal row⟩
  intro style p q
  constructor
  · intro h
    have hread := Fragment.read_render style p
    rw [h, Fragment.read_render style q] at hread
    exact (Option.some.inj hread).symm
  · intro h
    rw [← p.fragment_normal style, h, q.fragment_normal style]

/-- `NOT` binds tighter than `AND`, and `AND` tighter than `OR`. -/
example : readChain 30 .or
      (words [.keyword .not, .keyword .true, .keyword .and, .keyword .false, .keyword .or,
        .keyword .true])
    = some (.or [.and [.not (.const true), .const false], .const true], []) := rfl

end AccessFilter
