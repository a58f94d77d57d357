import AccessFilter.Proofs.Sql.Token

/-!
# A rendered predicate, token by token

* `Predicate.tokens`     the tokens of a predicate after some bound values; what stands at a
                         placeholder is a parameter;
* `scans_render`         the text of a predicate is read as its tokens, whatever its names contain;
* `slots_tokens`         its placeholders are numbered from left to right and stand for its values;
* `fill`, `fill_tokens`  putting bound values at placeholders, and that a predicate gets its own.
-/

namespace AccessFilter

open Sql

/-! ## the tokens of a predicate -/

section
variable {β : Type}

def Column.tokens (c : Column) : List (Token β) :=
  words [.identifier c.table, .dot, .identifier c.name]

def joinTokens (joiner : Keyword) : List (List (Token β)) → List (Token β)
  | [] => []
  | [t] => t
  | t :: ts => t ++ words [.keyword joiner] ++ joinTokens joiner ts

/-- A group: a keyword when empty, its only part, or the parts in parentheses. -/
def groupTokens (joiner empty : Keyword) : List (List (Token β)) → List (Token β)
  | [] => words [.keyword empty]
  | [t] => t
  | ts => words [.opening] ++ joinTokens joiner ts ++ words [.closing]

theorem joinTokens_cons_cons (joiner : Keyword) (t u : List (Token β))
    (ts : List (List (Token β))) :
    joinTokens joiner (t :: u :: ts)
      = t ++ words [.keyword joiner] ++ joinTokens joiner (u :: ts) := rfl

theorem groupTokens_cons_cons (joiner empty : Keyword) (t u : List (Token β))
    (ts : List (List (Token β))) :
    groupTokens joiner empty (t :: u :: ts)
      = words [.opening] ++ joinTokens joiner (t :: u :: ts) ++ words [.closing] := rfl

variable (slot : Nat → Value → β)

/-- The placeholders of a list, with commas between them. -/
def listTokens (bound : Nat) : List Value → List (Token β)
  | [] => []
  | [v] => [.slot (slot (bound + 1) v)]
  | v :: vs => [.slot (slot (bound + 1) v)] ++ words [.comma] ++ listTokens (bound + 1) vs

theorem listTokens_cons_cons (bound : Nat) (v w : Value) (vs : List Value) :
    listTokens slot bound (v :: w :: vs) = [.slot (slot (bound + 1) v)] ++ words [.comma]
      ++ listTokens slot (bound + 1) (w :: vs) := rfl

namespace Predicate

mutual

/-- The tokens of a predicate after `bound` values; the `k`-th value `v` stands as `slot k v`. -/
def tokens (bound : Nat) : Predicate → List (Token β)
  | .const true => words [.keyword .true]
  | .const false => words [.keyword .false]
  | .compare c op v => c.tokens ++ words [.comparison op] ++ [.slot (slot (bound + 1) v)]
  | .isNull c false => c.tokens ++ words [.keyword .is, .keyword .null]
  | .isNull c true => c.tokens ++ words [.keyword .is, .keyword .not, .keyword .null]
  | .inList c vs =>
    c.tokens ++ words [.keyword .member, .opening] ++ listTokens slot bound vs ++ words [.closing]
  | .and parts => groupTokens .and .true (tokensAll bound parts)
  | .or parts => groupTokens .or .false (tokensAll bound parts)
  | .not inner =>
    if isGrouped inner then words [.keyword .not] ++ tokens bound inner
    else words [.keyword .not, .opening] ++ tokens bound inner ++ words [.closing]

def tokensAll (bound : Nat) : List Predicate → List (List (Token β))
  | [] => []
  | p :: ps => tokens bound p :: tokensAll (bound + (values p).length) ps

end

end Predicate

end

/-! ## the placeholders of a predicate -/

namespace Sql

section
variable {β γ : Type}

def Token.map (f : β → γ) : Token β → Token γ
  | .word w => .word w
  | .slot b => .slot (f b)

/-- What stands at the placeholders, from left to right. -/
def slots (ts : List (Token β)) : List β :=
  ts.filterMap fun
    | .word _ => none
    | .slot b => some b

theorem slots_append (ts us : List (Token β)) : slots (ts ++ us) = slots ts ++ slots us :=
  List.filterMap_append

theorem slots_words (ws : List Word) : slots (words ws : List (Token β)) = [] := by
  induction ws with
  | nil => rfl
  | cons w ws ih => exact ih

theorem map_words (f : β → γ) (ws : List Word) : (words ws).map (Token.map f) = words ws := by
  rw [words, words, List.map_map]
  rfl

theorem slots_joinTokens (joiner : Keyword) (ts : List (List (Token β))) :
    slots (joinTokens joiner ts) = ts.flatMap slots := by
  induction ts with
  | nil => rfl
  | cons t ts ih =>
    cases ts with
    | nil => simp [joinTokens]
    | cons u us =>
      rw [joinTokens_cons_cons, slots_append, slots_append, slots_words, ih, List.append_nil]
      rfl

theorem slots_groupTokens (joiner empty : Keyword) (ts : List (List (Token β))) :
    slots (groupTokens joiner empty ts) = ts.flatMap slots := by
  rcases ts with _ | ⟨t, _ | ⟨u, us⟩⟩
  · rfl
  · simp [groupTokens]
  · rw [groupTokens_cons_cons, slots_append, slots_append, slots_words, slots_words,
      slots_joinTokens, List.nil_append, List.append_nil]

theorem map_joinTokens (f : β → γ) (joiner : Keyword) (ts : List (List (Token β))) :
    (joinTokens joiner ts).map (Token.map f)
      = joinTokens joiner (ts.map (List.map (Token.map f))) := by
  induction ts with
  | nil => rfl
  | cons t ts ih =>
    cases ts with
    | nil => rfl
    | cons u us =>
      rw [joinTokens_cons_cons, List.map_append, List.map_append, map_words, ih]
      rfl

theorem map_groupTokens (f : β → γ) (joiner empty : Keyword) (ts : List (List (Token β))) :
    (groupTokens joiner empty ts).map (Token.map f)
      = groupTokens joiner empty (ts.map (List.map (Token.map f))) := by
  rcases ts with _ | ⟨t, _ | ⟨u, us⟩⟩
  · rfl
  · rfl
  · rw [groupTokens_cons_cons, List.map_append, List.map_append, map_words, map_words,
      map_joinTokens]
    rfl

variable (slot : Nat → Value → β)

/-- Values after `bound` others, each with its number. -/
def numbered (bound : Nat) : List Value → List β
  | [] => []
  | v :: vs => slot (bound + 1) v :: numbered (bound + 1) vs

theorem numbered_append (bound : Nat) (vs ws : List Value) :
    numbered slot bound (vs ++ ws)
      = numbered slot bound vs ++ numbered slot (bound + vs.length) ws := by
  induction vs generalizing bound with
  | nil => rfl
  | cons v vs ih =>
    have hb : bound + 1 + vs.length = bound + (vs.length + 1) := by omega
    rw [List.cons_append, numbered, numbered, ih, List.cons_append, List.length_cons, hb]

theorem slots_listTokens (bound : Nat) (vs : List Value) :
    slots (listTokens slot bound vs) = numbered slot bound vs := by
  induction vs generalizing bound with
  | nil => rfl
  | cons v vs ih =>
    cases vs with
    | nil => rfl
    | cons w ws =>
      rw [listTokens_cons_cons, slots_append, slots_append, slots_words, ih, numbered]
      rfl

theorem map_listTokens (f : β → γ) (bound : Nat) (vs : List Value) :
    (listTokens slot bound vs).map (Token.map f)
      = listTokens (fun k v => f (slot k v)) bound vs := by
  induction vs generalizing bound with
  | nil => rfl
  | cons v vs ih =>
    cases vs with
    | nil => rfl
    | cons w ws =>
      rw [listTokens_cons_cons, List.map_append, List.map_append, map_words, ih]
      rfl

end

end Sql

namespace Predicate

section
variable {β γ : Type} (slot : Nat → Value → β)

mutual

/-- The placeholders of a predicate are numbered from left to right and stand for its values. -/
theorem slots_tokens : (p : Predicate) → (bound : Nat) →
    slots (p.tokens slot bound) = numbered slot bound p.values
  | .const true, _ => rfl
  | .const false, _ => rfl
  | .compare _ _ _, _ => rfl
  | .isNull _ false, _ => rfl
  | .isNull _ true, _ => rfl
  | .inList c vs, bound => by
    rw [tokens, slots_append, slots_append, slots_append, slots_words, slots_words,
      slots_listTokens, Column.tokens, slots_words, values]
    simp only [List.append_nil, List.nil_append]
  | .and parts, bound => by
    rw [tokens, slots_groupTokens, slots_tokensAll parts bound, values]
  | .or parts, bound => by
    rw [tokens, slots_groupTokens, slots_tokensAll parts bound, values]
  | .not inner, bound => by
    rw [tokens, values]
    split
    · rw [slots_append, slots_words, slots_tokens inner bound, List.nil_append]
    · rw [slots_append, slots_append, slots_words, slots_words, slots_tokens inner bound,
        List.nil_append, List.append_nil]

theorem slots_tokensAll : (ps : List Predicate) → (bound : Nat) →
    (tokensAll slot bound ps).flatMap slots = numbered slot bound (valuesAll ps)
  | [], _ => rfl
  | p :: ps, bound => by
    rw [tokensAll, List.flatMap_cons, slots_tokens p bound, slots_tokensAll ps, valuesAll,
      numbered_append]

end

mutual

/-- Changing what stands at the placeholders changes nothing else. -/
theorem map_tokens (f : β → γ) : (p : Predicate) → (bound : Nat) →
    (p.tokens slot bound).map (Token.map f) = p.tokens (fun k v => f (slot k v)) bound
  | .const true, _ => rfl
  | .const false, _ => rfl
  | .compare _ _ _, _ => rfl
  | .isNull _ false, _ => rfl
  | .isNull _ true, _ => rfl
  | .inList c vs, bound => by
    rw [tokens, List.map_append, List.map_append, List.map_append, map_words, map_words,
      map_listTokens, tokens]
    rfl
  | .and parts, bound => by
    rw [tokens, map_groupTokens, map_tokensAll f parts bound, tokens]
  | .or parts, bound => by
    rw [tokens, map_groupTokens, map_tokensAll f parts bound, tokens]
  | .not inner, bound => by
    rw [tokens, tokens]
    split
    · rw [List.map_append, map_words, map_tokens f inner bound]
    · rw [List.map_append, List.map_append, map_words, map_words, map_tokens f inner bound]

theorem map_tokensAll (f : β → γ) : (ps : List Predicate) → (bound : Nat) →
    (tokensAll slot bound ps).map (List.map (Token.map f))
      = tokensAll (fun k v => f (slot k v)) bound ps
  | [], _ => rfl
  | p :: ps, bound => by
    rw [tokensAll, List.map_cons, map_tokens f p bound, map_tokensAll f ps, tokensAll]

end

end

end Predicate

/-! ## the text is read as these tokens -/

namespace Sql

theorem scans_keywords (ks : List Keyword) {rest : List Char} (h : Stops rest) :
    Scans (ks.flatMap (fun k => ' ' :: k.chars) ++ rest) (words (ks.map .keyword)) rest := by
  induction ks with
  | nil => exact Scans.refl rest
  | cons k ks ih =>
    have hstop : Stops (ks.flatMap (fun k => ' ' :: k.chars) ++ rest) := by
      cases ks with
      | nil => exact h
      | cons k' ks => exact stops_blank _
    have hk := (Scans.blank _).trans ((scans_keyword k hstop).trans ih)
    rwa [List.flatMap_cons, List.append_assoc]

theorem placeholders_cons (style : Placeholder) (bound : Nat) (n : Nat) :
    Predicate.placeholders style bound (n + 1)
      = style.chars (bound + 1) :: Predicate.placeholders style (bound + 1) n := by
  rw [Predicate.placeholders, Predicate.placeholders, List.range_succ_eq_map, List.map_cons,
    List.map_map]
  congr 1
  apply List.map_congr_left
  intro i _
  show style.chars (bound + (i + 1) + 1) = style.chars (bound + 1 + i + 1)
  congr 1
  omega

theorem joinChars_cons_cons (separator t u : List Char) (ts : List (List Char)) :
    Predicate.joinChars separator (t :: u :: ts)
      = t ++ separator ++ Predicate.joinChars separator (u :: ts) := rfl

theorem scans_list (style : Placeholder) (vs : List Value) (bound : Nat) (rest : List Char) :
    Scans (Predicate.joinChars ", ".toList (Predicate.placeholders style bound vs.length)
        ++ ')' :: rest)
      (listTokens (fun k _ => style.mark k) bound vs) (')' :: rest) := by
  induction vs generalizing bound with
  | nil => exact Scans.refl _
  | cons v vs ih =>
    rw [List.length_cons, placeholders_cons]
    cases vs with
    | nil => exact scans_slot style (bound + 1) (stops_closing rest)
    | cons w vs =>
      have ih' := ih (bound + 1)
      rw [List.length_cons, placeholders_cons] at ih' ⊢
      rw [joinChars_cons_cons, List.append_assoc, List.append_assoc]
      have hslot := scans_slot style (bound + 1) (stops_comma
        (' ' :: (Predicate.joinChars ", ".toList (style.chars (bound + 1 + 1)
          :: Predicate.placeholders style (bound + 1 + 1) vs.length) ++ ')' :: rest)))
      have hcomma : Scans (',' :: ' ' :: (Predicate.joinChars ", ".toList
          (style.chars (bound + 1 + 1) :: Predicate.placeholders style (bound + 1 + 1) vs.length)
            ++ ')' :: rest)) (words [.comma]) _ := Scans.first rfl
      exact hslot.trans (hcomma.trans ((Scans.blank _).trans ih'))

/-- What stands between the parts of a group. -/
def between (joiner : Keyword) : List Char := ' ' :: joiner.chars ++ [' ']

theorem scans_between (joiner : Keyword) (rest : List Char) :
    Scans (between joiner ++ rest) (words [.keyword joiner]) rest := by
  have h : Scans (joiner.chars ++ ' ' :: rest) (words [.keyword joiner]) (' ' :: rest) :=
    scans_keyword joiner (stops_blank rest)
  have hall := (Scans.blank _).trans (h.trans (Scans.blank rest))
  rwa [between, List.append_assoc]

/-- A group is read as its tokens, if its parts with their joiners are. -/
theorem scans_group (joiner empty : Keyword) (texts : List (List Char))
    (tokens : List (List (Token Mark))) (hlen : texts.length = tokens.length)
    (h : ∀ rest, Stops rest →
      Scans (Predicate.joinChars (between joiner) texts ++ rest) (joinTokens joiner tokens) rest)
    (rest : List Char) (hrest : Stops rest) :
    Scans (Predicate.groupChars (between joiner) empty.chars texts ++ rest)
      (groupTokens joiner empty tokens) rest := by
  rcases texts with _ | ⟨a, _ | ⟨b, texts⟩⟩ <;> rcases tokens with _ | ⟨t, _ | ⟨u, tokens⟩⟩ <;>
    try cases hlen
  · exact scans_keyword empty hrest
  · exact h rest hrest
  · have hopen : Scans ('(' :: (Predicate.joinChars (between joiner) (a :: b :: texts)
        ++ ')' :: rest)) (words [.opening]) _ := Scans.first rfl
    have hclose : Scans (')' :: rest) (words [.closing]) rest := Scans.first rfl
    have hall := (hopen.trans (h _ (stops_closing rest))).trans hclose
    show Scans ('(' :: ((Predicate.joinChars (between joiner) (a :: b :: texts) ++ [')'])
      ++ rest)) _ rest
    rw [List.append_assoc]
    exact hall

end Sql

namespace Predicate

section
variable (style : Placeholder)

theorem length_renderAll (bound : Nat) (ps : List Predicate) :
    (renderAll style bound ps).length
      = (tokensAll (fun k _ => style.mark k) bound ps).length := by
  induction ps generalizing bound with
  | nil => rfl
  | cons p ps ih =>
    rw [renderAll, tokensAll, List.length_cons, List.length_cons, ih]

mutual

/-- **The text of a predicate is read as its tokens**, whatever its names contain. -/
theorem scans_render : (p : Predicate) → (bound : Nat) → (rest : List Char) → Stops rest →
    Scans (p.render style bound ++ rest) (p.tokens (fun k _ => style.mark k) bound) rest
  | .const true, _, _, h => scans_keyword .true h
  | .const false, _, _, h => scans_keyword .false h
  | .compare c op v, bound, rest, h => by
    have hslot := (Scans.blank _).trans (scans_slot style (bound + 1) h)
    have hop := (Scans.blank _).trans
      ((scans_comparison op (style.chars (bound + 1) ++ rest)).trans hslot)
    have hall := (scans_column c _).trans hop
    rw [render, tokens, Column.tokens]
    simpa [List.append_assoc] using hall
  | .isNull c false, _, rest, h => by
    have hall := (scans_column c _).trans (scans_keywords [.is, .null] h)
    rw [render, tokens, List.append_assoc]
    exact hall
  | .isNull c true, _, rest, h => by
    have hall := (scans_column c _).trans (scans_keywords [.is, .not, .null] h)
    rw [render, tokens, List.append_assoc]
    exact hall
  | .inList c vs, bound, rest, h => by
    have hclose : Scans (')' :: rest) (words [.closing]) rest := Scans.first rfl
    have hopen : Scans ('(' :: (joinChars ", ".toList (placeholders style bound vs.length)
        ++ ')' :: rest)) (words [.opening]) _ := Scans.first rfl
    have hlist := hopen.trans ((scans_list style vs bound rest).trans hclose)
    have hall := (scans_column c _).trans
      ((scans_keywords [.member] (stops_blank _)).trans ((Scans.blank _).trans hlist))
    rw [render, tokens, Column.tokens]
    have hword : Keyword.member.chars = ['I', 'N'] := rfl
    simpa [words, hword, List.append_assoc] using hall
  | .and parts, bound, rest, h => by
    rw [render, tokens]
    exact scans_group .and .true _ _ (length_renderAll style bound parts)
      (scans_joined .and parts bound) rest h
  | .or parts, bound, rest, h => by
    rw [render, tokens]
    exact scans_group .or .false _ _ (length_renderAll style bound parts)
      (scans_joined .or parts bound) rest h
  | .not inner, bound, rest, h => by
    have hnot : ∀ cs, Scans ("NOT ".toList ++ cs) (words [.keyword .not]) cs := fun cs =>
      (scans_keyword .not (stops_blank cs)).trans (Scans.blank cs)
    rw [render, tokens]
    split
    · rw [List.append_assoc]
      exact (hnot _).trans (scans_render inner bound rest h)
    · have hclose : Scans (')' :: rest) (words [.closing]) rest := Scans.first rfl
      have hopen : Scans ('(' :: (inner.render style bound ++ ')' :: rest)) (words [.opening]) _ :=
        Scans.first rfl
      have hall := (hnot _).trans
        (hopen.trans ((scans_render inner bound _ (stops_closing rest)).trans hclose))
      simpa [words, List.append_assoc] using hall

theorem scans_joined (joiner : Keyword) : (ps : List Predicate) → (bound : Nat) →
    (rest : List Char) → Stops rest →
    Scans (joinChars (between joiner) (renderAll style bound ps) ++ rest)
      (joinTokens joiner (tokensAll (fun k _ => style.mark k) bound ps)) rest
  | [], _, rest, _ => Scans.refl rest
  | [p], bound, rest, h => scans_render p bound rest h
  | p :: q :: ps, bound, rest, h => by
    have hq := scans_joined joiner (q :: ps) (bound + p.values.length) rest h
    have hp := scans_render p bound _ (stops_blank (joiner.chars ++ [' '] ++ (joinChars
      (between joiner) (renderAll style (bound + p.values.length) (q :: ps)) ++ rest)))
    have hall := hp.trans ((scans_between joiner _).trans hq)
    simpa [renderAll, tokensAll, joinChars, joinTokens, List.append_assoc, between] using hall

end

theorem scan_render (p : Predicate) :
    scan (p.render style 0) = some (p.tokens (fun k _ => style.mark k) 0) := by
  have h := p.scans_render style 0 [] stops_nil
  rw [List.append_nil] at h
  exact h.scan_eq

end

end Predicate

/-! ## the placeholders get the bound values -/

namespace Sql

/-- The value of a placeholder, when `used` values have been taken one after the other. -/
def Mark.value? (params : List Value) (used : Nat) : Mark → Option Value
  | .numbered 0 => none
  | .numbered (k + 1) => params[k]?
  | .next => params[used]?

/-- How many values have been taken one after the other, a placeholder later. -/
def Mark.after (used : Nat) : Mark → Nat
  | .numbered _ => used
  | .next => used + 1

/-- Put bound values at the placeholders. -/
def fill (params : List Value) (used : Nat) : List (Token Mark) → Option (List (Token Value))
  | [] => some []
  | .word w :: ts => (fill params used ts).map (.word w :: ·)
  | .slot m :: ts => do
    let v ← m.value? params used
    (fill params (m.after used) ts).map (.slot v :: ·)

end Sql

namespace Placeholder

/-- How many values a style takes one after the other for `bound` placeholders. -/
def taken : Placeholder → Nat → Nat
  | .numbered, _ => 0
  | .question, bound => bound

theorem after_mark (style : Placeholder) (bound : Nat) :
    (style.mark (bound + 1)).after (style.taken bound) = style.taken (bound + 1) := by
  cases style <;> rfl

theorem value?_mark (style : Placeholder) (params : List Value) (bound : Nat) :
    (style.mark (bound + 1)).value? params (style.taken bound) = params[bound]? := by
  cases style <;> rfl

end Placeholder

namespace Sql

/-- Placeholders that are numbered from left to right get the values bound to them. -/
theorem fill_numbered (style : Placeholder) (params : List Value) (post : List Value)
    (ts : List (Token (Nat × Value))) (pre vs : List Value) (hp : params = pre ++ vs ++ post)
    (h : slots ts = numbered Prod.mk pre.length vs) :
    fill params (style.taken pre.length) (ts.map (Token.map fun s => style.mark s.1))
      = some (ts.map (Token.map Prod.snd)) := by
  induction ts generalizing pre vs with
  | nil => rfl
  | cons t ts ih =>
    cases t with
    | word w =>
      rw [List.map_cons, List.map_cons, Token.map, fill, ih pre vs hp h]
      rfl
    | slot s =>
      obtain ⟨k, v⟩ := s
      cases vs with
      | nil => cases h
      | cons v' vs =>
        rw [numbered] at h
        obtain ⟨hs, hrest⟩ := List.cons.inj h
        cases hs
        have hv : params[pre.length]? = some v := by
          rw [hp, List.append_assoc, List.cons_append, List.getElem?_append_right (Nat.le_refl _),
            Nat.sub_self, List.getElem?_cons_zero]
        have ih' := ih (pre ++ [v]) vs (by rw [hp]; simp) (by rw [List.length_append]; exact hrest)
        rw [List.length_append, List.length_singleton] at ih'
        rw [List.map_cons, List.map_cons, Token.map, fill, style.value?_mark, hv,
          style.after_mark, Option.bind_eq_bind, Option.bind_some, ih']
        rfl

end Sql

/-- **The placeholders of a predicate get exactly its values**, in both styles. -/
theorem Predicate.fill_tokens (style : Placeholder) (p : Predicate) :
    fill p.values 0 (p.tokens (fun k _ => style.mark k) 0) = some (p.tokens (fun _ v => v) 0) := by
  have h := fill_numbered style p.values [] (p.tokens Prod.mk 0) [] p.values (by simp)
    (p.slots_tokens Prod.mk 0)
  rw [map_tokens, map_tokens] at h
  cases style <;> exact h

end AccessFilter
