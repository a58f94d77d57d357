import AccessFilter.Proofs.Yaml.Text
import AccessFilter.Yaml.Decode

/-!
# Written values give their nodes

The tokens of a value are read as one node, whatever follows, and the whole text of an object is one
document. The fuel of the reader is four times the number of tokens, of which the tokens of a value
need their own share.

* `Value.node`        the node of a value;
* `Source.node_tokens`   the tokens of a value give its node;
* `ofText_object`     the document of the text of an object.
-/

namespace AccessFilter

open Yaml

mutual

/-- The node that a value is written as. -/
def Value.node : Value → Node
  | .array items => .sequence none none (Value.itemNodes items)
  | .object fields => .mapping none none (Value.fieldNodes fields)
  | v => (v.scalar?.map fun s => Node.scalar none none s.1 s.2).getD .broken

def Value.itemNodes : List Value → List Node
  | [] => []
  | v :: vs => v.node :: Value.itemNodes vs

def Value.fieldNodes : List (String × Value) → List (Node × Node)
  | [] => []
  | (k, v) :: fs => (.scalar none none (styleOf k) k, v.node) :: Value.fieldNodes fs

end

theorem Value.node_scalar {v : Value} {style : ScalarStyle} {s : String}
    (h : v.scalar? = some (style, s)) : v.node = .scalar none none style s := by
  cases v with
  | array vs => cases h
  | object fs => cases h
  | null => cases h; rfl
  | bool b => cases b <;> cases h <;> rfl
  | number n => cases h; rfl
  | string s => cases h; rfl

namespace Yaml.Source

variable {fuel : Nat} {block flat : Bool} {rest : List Token} {a : Fields Nat}
  {h : Fields (List UInt8)}

/-! ## one token -/

theorem node_scalar (style : ScalarStyle) (text : String) :
    node (fuel + 1) block flat ⟨.scalar style text :: rest, a, h⟩
      = (.scalar none none style text, ⟨rest, a, h⟩) := by
  cases flat <;> rfl

theorem node_openSequence : node (fuel + 2) block flat ⟨.openSequence :: .closeSequence :: rest, a, h⟩
    = (.sequence none none [], ⟨rest, a, h⟩) := by
  cases flat <;> rfl

theorem node_openMapping : node (fuel + 2) block flat ⟨.openMapping :: .closeMapping :: rest, a, h⟩
    = (.mapping none none [], ⟨rest, a, h⟩) := by
  cases flat <;> rfl

theorem node_blockSequence : node (fuel + 1) true flat ⟨.blockSequence :: rest, a, h⟩
    = (.sequence none none (blockItems fuel ⟨rest, a, h⟩).1, (blockItems fuel ⟨rest, a, h⟩).2) := by
  cases flat <;> rfl

theorem node_blockMapping : node (fuel + 1) true flat ⟨.blockMapping :: rest, a, h⟩
    = (.mapping none none (blockPairs fuel ⟨rest, a, h⟩).1, (blockPairs fuel ⟨rest, a, h⟩).2) := by
  cases flat <;> rfl

theorem node_blockEntry : node (fuel + 1) block true ⟨.blockEntry :: rest, a, h⟩
    = (.sequence none none (flatItems fuel ⟨.blockEntry :: rest, a, h⟩).1,
        (flatItems fuel ⟨.blockEntry :: rest, a, h⟩).2) := rfl

theorem nodeUnless_of_token {leftOut : Token → Bool} {t : Token} {ts : List Token}
    (ht : leftOut t = false) :
    nodeUnless (fuel + 1) leftOut block flat ⟨t :: ts, a, h⟩ = node fuel block flat ⟨t :: ts, a, h⟩ := by
  rw [nodeUnless]
  exact if_neg (by rw [ht]; exact Bool.false_ne_true)

theorem blockItems_cons : blockItems (fuel + 1) ⟨.blockEntry :: rest, a, h⟩
    = ((nodeUnless fuel endsItem true false ⟨rest, a, h⟩).1 ::
          (blockItems fuel (nodeUnless fuel endsItem true false ⟨rest, a, h⟩).2).1,
        (blockItems fuel (nodeUnless fuel endsItem true false ⟨rest, a, h⟩).2).2) := rfl

theorem blockItems_nil : blockItems (fuel + 1) ⟨.blockEnd :: rest, a, h⟩ = ([], ⟨rest, a, h⟩) := rfl

theorem flatItems_cons : flatItems (fuel + 1) ⟨.blockEntry :: rest, a, h⟩
    = ((nodeUnless fuel endsFlatItem true false ⟨rest, a, h⟩).1 ::
          (flatItems fuel (nodeUnless fuel endsFlatItem true false ⟨rest, a, h⟩).2).1,
        (flatItems fuel (nodeUnless fuel endsFlatItem true false ⟨rest, a, h⟩).2).2) := rfl

theorem flatItems_nil {t : Token} {ts : List Token} (ht : t ≠ .blockEntry) :
    flatItems (fuel + 1) ⟨t :: ts, a, h⟩ = ([], ⟨t :: ts, a, h⟩) := by
  rw [flatItems]
  split
  · next heq => cases heq
  · next heq =>
    cases heq
    exact absurd rfl ht
  · rfl

theorem blockPairs_cons {style : ScalarStyle} {text : String} :
    blockPairs (fuel + 3) ⟨.key :: .scalar style text :: .value :: rest, a, h⟩
      = ((.scalar none none style text, (nodeUnless (fuel + 1) endsBlockPart true true ⟨rest, a, h⟩).1) ::
          (blockPairs (fuel + 2) (nodeUnless (fuel + 1) endsBlockPart true true ⟨rest, a, h⟩).2).1,
        (blockPairs (fuel + 2) (nodeUnless (fuel + 1) endsBlockPart true true ⟨rest, a, h⟩).2).2) := rfl

theorem blockPairs_nil : blockPairs (fuel + 1) ⟨.blockEnd :: rest, a, h⟩ = ([], ⟨rest, a, h⟩) := rfl

/-! ## the tokens of a value -/

/-- The first token of a value starts a node. -/
theorem exists_tokens_cons (v : Value) (flat : Bool) :
    ∃ t ts, v.tokens flat = t :: ts ∧ endsBlockPart t = false ∧ t ≠ .blockEnd ∧
      (flat = false → t ≠ .blockEntry) := by
  cases v using Value.induction with
  | scalar v style s hs => exact ⟨_, _, (Value.tokens_scalar hs).1 flat, rfl, nofun, nofun⟩
  | array vs =>
    cases vs with
    | nil => exact ⟨.openSequence, _, rfl, rfl, nofun, nofun⟩
    | cons v vs =>
      cases flat with
      | false => exact ⟨.blockSequence, _, rfl, rfl, nofun, nofun⟩
      | true => exact ⟨.blockEntry, _, rfl, rfl, nofun, nofun⟩
  | object fs =>
    cases fs with
    | nil => exact ⟨.openMapping, _, rfl, rfl, nofun, nofun⟩
    | cons f fs => exact ⟨.blockMapping, _, rfl, rfl, nofun, nofun⟩

/-- What may follow a value: behind a flat sequence no further item. -/
def MayFollow (flat : Bool) (rest : List Token) : Prop :=
  flat = true → ∃ t ts, rest = t :: ts ∧ t ≠ .blockEntry

theorem mayFollow_false : MayFollow false rest := fun h => absurd h Bool.false_ne_true

/-- The tokens of a value give its node. -/
def Gives (v : Value) : Prop :=
  ∀ (fuel : Nat) (flat accepts : Bool) (rest : List Token) (a : Fields Nat)
    (h : Fields (List UInt8)), (flat = true → accepts = true) → MayFollow flat rest →
    4 * (v.tokens flat).length ≤ fuel →
    node fuel true accepts ⟨v.tokens flat ++ rest, a, h⟩ = (v.node, ⟨rest, a, h⟩)

theorem Gives.nodeUnless {v : Value} (hv : Gives v) {leftOut : Token → Bool} {flat accepts : Bool}
    (hleft : ∀ t, endsBlockPart t = false → t ≠ .blockEnd → (flat = false → t ≠ .blockEntry) →
      leftOut t = false) (haccepts : flat = true → accepts = true) (hrest : MayFollow flat rest)
    (hfuel : 4 * (v.tokens flat).length ≤ fuel) :
    nodeUnless (fuel + 1) leftOut true accepts ⟨v.tokens flat ++ rest, a, h⟩
      = (v.node, ⟨rest, a, h⟩) := by
  obtain ⟨t, ts, htokens, hpart, hend, hentry⟩ := exists_tokens_cons v flat
  have hnode := hv fuel flat accepts rest a h haccepts hrest hfuel
  rw [htokens, List.cons_append] at hnode ⊢
  rw [nodeUnless_of_token (hleft t hpart hend hentry)]
  exact hnode

theorem endsItem_of_start (t : Token) (hend : t ≠ .blockEnd) (hentry : t ≠ .blockEntry) :
    endsItem t = false := by
  rw [endsItem, decide_eq_false hentry, decide_eq_false hend]
  rfl

theorem endsFlatItem_of_start (t : Token) (hpart : endsBlockPart t = false)
    (hentry : t ≠ .blockEntry) : endsFlatItem t = false := by
  have hflat : endsFlatItem t = (decide (t = .blockEntry) || endsBlockPart t) := by
    simp only [endsFlatItem, endsBlockPart, Bool.or_assoc]
  rw [hflat, decide_eq_false hentry, hpart]
  rfl

theorem blockItems_tokens {vs : List Value} (hvs : ∀ v ∈ vs, Gives v) (hpos : 1 ≤ fuel)
    (hfuel : 4 * (Value.itemTokens vs).length ≤ fuel + 2) :
    blockItems fuel ⟨Value.itemTokens vs ++ .blockEnd :: rest, a, h⟩
      = (Value.itemNodes vs, ⟨rest, a, h⟩) := by
  induction vs generalizing fuel with
  | nil =>
    obtain ⟨fuel, rfl⟩ : ∃ f, fuel = f + 1 := ⟨fuel - 1, by omega⟩
    exact blockItems_nil
  | cons v vs ih =>
    obtain ⟨hv, hvs⟩ := List.forall_mem_cons.mp hvs
    simp only [Value.itemTokens, List.length_append, List.length_cons] at hfuel
    obtain ⟨fuel, rfl⟩ : ∃ f, fuel = f + 2 := ⟨fuel - 2, by omega⟩
    have hnode : nodeUnless (fuel + 1) endsItem true false
        ⟨v.tokens false ++ (Value.itemTokens vs ++ .blockEnd :: rest), a, h⟩
          = (v.node, ⟨Value.itemTokens vs ++ .blockEnd :: rest, a, h⟩) :=
      hv.nodeUnless (fun t _ hend hentry => endsItem_of_start t hend (hentry rfl))
        (fun h => absurd h Bool.false_ne_true) mayFollow_false (by omega)
    have hrest : blockItems (fuel + 1) ⟨Value.itemTokens vs ++ .blockEnd :: rest, a, h⟩
        = (Value.itemNodes vs, ⟨rest, a, h⟩) := ih hvs (by omega) (by omega)
    show blockItems (fuel + 2) ⟨.blockEntry :: v.tokens false ++ Value.itemTokens vs ++
      .blockEnd :: rest, a, h⟩ = _
    rw [List.cons_append, List.cons_append, List.append_assoc, blockItems_cons, hnode, hrest]
    rfl

theorem flatItems_tokens {t : Token} {ts : List Token} (ht : t ≠ .blockEntry) {vs : List Value}
    (hvs : ∀ v ∈ vs, Gives v) (hpos : 1 ≤ fuel)
    (hfuel : 4 * (Value.itemTokens vs).length ≤ fuel + 2) :
    flatItems fuel ⟨Value.itemTokens vs ++ t :: ts, a, h⟩
      = (Value.itemNodes vs, ⟨t :: ts, a, h⟩) := by
  induction vs generalizing fuel with
  | nil =>
    obtain ⟨fuel, rfl⟩ : ∃ f, fuel = f + 1 := ⟨fuel - 1, by omega⟩
    exact flatItems_nil ht
  | cons v vs ih =>
    obtain ⟨hv, hvs⟩ := List.forall_mem_cons.mp hvs
    simp only [Value.itemTokens, List.length_append, List.length_cons] at hfuel
    obtain ⟨fuel, rfl⟩ : ∃ f, fuel = f + 2 := ⟨fuel - 2, by omega⟩
    have hnode : nodeUnless (fuel + 1) endsFlatItem true false
        ⟨v.tokens false ++ (Value.itemTokens vs ++ t :: ts), a, h⟩
          = (v.node, ⟨Value.itemTokens vs ++ t :: ts, a, h⟩) :=
      hv.nodeUnless (fun t hpart _ hentry => endsFlatItem_of_start t hpart (hentry rfl))
        (fun h => absurd h Bool.false_ne_true) mayFollow_false (by omega)
    have hrest : flatItems (fuel + 1) ⟨Value.itemTokens vs ++ t :: ts, a, h⟩
        = (Value.itemNodes vs, ⟨t :: ts, a, h⟩) := ih hvs (by omega) (by omega)
    show flatItems (fuel + 2) ⟨.blockEntry :: v.tokens false ++ Value.itemTokens vs ++ t :: ts, a, h⟩
      = _
    rw [List.cons_append, List.cons_append, List.append_assoc, flatItems_cons, hnode, hrest]
    rfl

theorem mayFollow_fields (flat : Bool) (fs : List (String × Value)) :
    MayFollow flat (Value.fieldTokens fs ++ .blockEnd :: rest) := by
  intro _
  cases fs with
  | nil => exact ⟨_, _, rfl, nofun⟩
  | cons f fs => exact ⟨_, _, rfl, nofun⟩

theorem blockPairs_tokens {fs : List (String × Value)} (hfs : ∀ f ∈ fs, Gives f.2) (hpos : 1 ≤ fuel)
    (hfuel : 4 * (Value.fieldTokens fs).length ≤ fuel + 2) :
    blockPairs fuel ⟨Value.fieldTokens fs ++ .blockEnd :: rest, a, h⟩
      = (Value.fieldNodes fs, ⟨rest, a, h⟩) := by
  induction fs generalizing fuel with
  | nil =>
    obtain ⟨fuel, rfl⟩ : ∃ f, fuel = f + 1 := ⟨fuel - 1, by omega⟩
    exact blockPairs_nil
  | cons f fs ih =>
    obtain ⟨k, v⟩ := f
    obtain ⟨hv, hfs⟩ := List.forall_mem_cons.mp hfs
    have hv : Gives v := hv
    simp only [Value.fieldTokens, List.length_append, List.length_cons] at hfuel
    obtain ⟨fuel, rfl⟩ : ∃ f, fuel = f + 3 := ⟨fuel - 3, by omega⟩
    have hnode : nodeUnless (fuel + 1) endsBlockPart true true
        ⟨v.tokens (isShortKey k) ++ (Value.fieldTokens fs ++ .blockEnd :: rest), a, h⟩
          = (v.node, ⟨Value.fieldTokens fs ++ .blockEnd :: rest, a, h⟩) :=
      hv.nodeUnless (fun t hpart _ _ => hpart) (fun _ => rfl) (mayFollow_fields _ fs) (by omega)
    have hrest : blockPairs (fuel + 2) ⟨Value.fieldTokens fs ++ .blockEnd :: rest, a, h⟩
        = (Value.fieldNodes fs, ⟨rest, a, h⟩) := ih hfs (by omega) (by omega)
    show blockPairs (fuel + 3) ⟨.key :: .scalar (styleOf k) k :: .value ::
      v.tokens (isShortKey k) ++ Value.fieldTokens fs ++ .blockEnd :: rest, a, h⟩ = _
    rw [List.append_assoc, List.cons_append, List.cons_append, List.cons_append, blockPairs_cons,
      hnode, hrest]
    rfl

theorem gives_array {v : Value} {vs : List Value} (hvs : ∀ w ∈ v :: vs, Gives w) :
    Gives (.array (v :: vs)) := by
  intro fuel flat accepts rest a h haccepts hrest hfuel
  cases flat with
  | true =>
    have hfuel : 4 * (Value.itemTokens (v :: vs)).length ≤ fuel := hfuel
    have hlength : 1 ≤ (Value.itemTokens (v :: vs)).length := Nat.succ_pos _
    obtain ⟨fuel, rfl⟩ : ∃ f, fuel = f + 1 := ⟨fuel - 1, by omega⟩
    obtain ⟨t, ts, rfl, ht⟩ := hrest rfl
    have hitems : flatItems fuel ⟨Value.itemTokens (v :: vs) ++ t :: ts, a, h⟩
        = (Value.itemNodes (v :: vs), ⟨t :: ts, a, h⟩) :=
      flatItems_tokens ht hvs (by omega) (by omega)
    rw [haccepts rfl]
    show node (fuel + 1) true true ⟨.blockEntry :: v.tokens false ++ Value.itemTokens vs ++
      t :: ts, a, h⟩ = _
    rw [List.cons_append, List.cons_append, node_blockEntry]
    rw [show Token.blockEntry :: (v.tokens false ++ Value.itemTokens vs ++ t :: ts)
      = Value.itemTokens (v :: vs) ++ t :: ts from rfl, hitems]
    rfl
  | false =>
    have hfuel : 4 * (Token.blockSequence :: Value.itemTokens (v :: vs) ++
      [Token.blockEnd]).length ≤ fuel := hfuel
    rw [List.length_append, List.length_cons, List.length_singleton] at hfuel
    obtain ⟨fuel, rfl⟩ : ∃ f, fuel = f + 1 := ⟨fuel - 1, by omega⟩
    have hitems : blockItems fuel ⟨Value.itemTokens (v :: vs) ++ .blockEnd :: rest, a, h⟩
        = (Value.itemNodes (v :: vs), ⟨rest, a, h⟩) :=
      blockItems_tokens hvs (by omega) (by omega)
    show node (fuel + 1) true accepts ⟨.blockSequence :: Value.itemTokens (v :: vs) ++
      [Token.blockEnd] ++ rest, a, h⟩ = _
    rw [List.append_assoc, List.cons_append, node_blockSequence, List.singleton_append, hitems]
    rfl

theorem gives_object {f : String × Value} {fs : List (String × Value)}
    (hfs : ∀ g ∈ f :: fs, Gives g.2) : Gives (.object (f :: fs)) := by
  intro fuel flat accepts rest a h _ _ hfuel
  have hfuel : 4 * (Token.blockMapping :: Value.fieldTokens (f :: fs) ++
    [Token.blockEnd]).length ≤ fuel := hfuel
  rw [List.length_append, List.length_cons, List.length_singleton] at hfuel
  obtain ⟨fuel, rfl⟩ : ∃ f, fuel = f + 1 := ⟨fuel - 1, by omega⟩
  have hfields : blockPairs fuel ⟨Value.fieldTokens (f :: fs) ++ .blockEnd :: rest, a, h⟩
      = (Value.fieldNodes (f :: fs), ⟨rest, a, h⟩) :=
    blockPairs_tokens hfs (by omega) (by omega)
  show node (fuel + 1) true accepts ⟨.blockMapping :: Value.fieldTokens (f :: fs) ++
    [Token.blockEnd] ++ rest, a, h⟩ = _
  rw [List.append_assoc, List.cons_append, node_blockMapping, List.singleton_append, hfields]
  rfl

/-- **The tokens of a value give its node.** -/
theorem node_tokens (v : Value) : Gives v := by
  induction v using Value.induction with
  | scalar v style s hs =>
    intro fuel flat accepts rest a h _ _ hfuel
    rw [(Value.tokens_scalar hs).1, List.length_singleton] at hfuel
    obtain ⟨fuel, rfl⟩ : ∃ f, fuel = f + 1 := ⟨fuel - 1, by omega⟩
    rw [(Value.tokens_scalar hs).1, Value.node_scalar hs]
    exact node_scalar style s
  | array vs ih =>
    cases vs with
    | nil =>
      intro fuel flat accepts rest a h _ _ hfuel
      have hfuel : 8 ≤ fuel := hfuel
      obtain ⟨fuel, rfl⟩ : ∃ f, fuel = f + 2 := ⟨fuel - 2, by omega⟩
      exact node_openSequence
    | cons v vs => exact gives_array ih
  | object fs ih =>
    cases fs with
    | nil =>
      intro fuel flat accepts rest a h _ _ hfuel
      have hfuel : 8 ≤ fuel := hfuel
      obtain ⟨fuel, rfl⟩ : ∃ f, fuel = f + 2 := ⟨fuel - 2, by omega⟩
      exact node_openMapping
    | cons f fs => exact gives_object ih

end Yaml.Source

/-- **The document of the text of an object with fields.** -/
theorem Yaml.Document.ofText_object (f : String × Value) (fs : List (String × Value)) :
    Document.ofText (Value.object (f :: fs)).yaml = ⟨(Value.object (f :: fs)).node, true⟩ := by
  have htokens := ofText_yaml f fs
  have hnode := Source.node_tokens (.object (f :: fs))
    (4 * ((Value.object (f :: fs)).tokens false ++ [Token.streamEnd]).length + 8) false false [.streamEnd] []
    ({} : Directives).allHandles nofun nofun (by
      rw [List.length_append]
      omega)
  rw [Document.ofText, htokens]
  show Document.withRoot {} ((Value.object (f :: fs)).tokens false ++ [.streamEnd]) = _
  rw [Document.withRoot, hnode]
  rfl

end AccessFilter
