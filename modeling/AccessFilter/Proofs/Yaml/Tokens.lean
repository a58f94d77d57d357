import AccessFilter.Proofs.Value.Same
import AccessFilter.Proofs.Yaml.Layout.Scalar
import AccessFilter.Proofs.Yaml.Numeral

/-!
# Tokens of values

The tokens that a written value consists of, and the parts of the text that are written for a value.

* `Value.scalar?`       the form and the text of a scalar;
* `Value.induction`     a property of all values from scalars, items and fields;
* `Value.tokens`        the tokens of a value;
* `yamlAfter_eq`        what stands behind the colon of a key.
-/

namespace AccessFilter

open Yaml

/-! ## scalars and collections -/

/-- The form and the text of a scalar. -/
def Value.scalar? : Value → Option (ScalarStyle × String)
  | .null => some (.plain, "null")
  | .bool true => some (.plain, "true")
  | .bool false => some (.plain, "false")
  | .number n => some (.plain, String.ofList (n.chars Yaml.style))
  | .string s => some (styleOf s, s)
  | .array _ => none
  | .object _ => none

/-- A property of all values that holds of scalars, and of a collection when it holds of what the
collection holds. -/
@[elab_as_elim]
theorem Value.induction {motive : Value → Prop}
    (scalar : ∀ v style s, v.scalar? = some (style, s) → motive v)
    (array : ∀ vs, (∀ v ∈ vs, motive v) → motive (.array vs))
    (object : ∀ fs, (∀ f ∈ fs, motive f.2) → motive (.object fs)) (v : Value) : motive v := by
  induction v using Value.byParts with
  | step v ih =>
    cases v with
    | null => exact scalar .null _ _ rfl
    | bool b => cases b <;> exact scalar _ _ _ rfl
    | number n => exact scalar (.number n) _ _ rfl
    | string s => exact scalar (.string s) _ _ rfl
    | array vs => exact array vs ih
    | object fs => exact object fs fun f hf => ih f.2 (List.mem_map_of_mem hf)

/-! ## the tokens of a value -/

mutual

/-- The tokens of a value. A flat sequence has no marks of its own. -/
def Value.tokens (flat : Bool) : Value → List Token
  | .array items =>
    if items.isEmpty then [.openSequence, .closeSequence]
    else if flat then Value.itemTokens items
    else .blockSequence :: Value.itemTokens items ++ [.blockEnd]
  | .object fields =>
    if fields.isEmpty then [.openMapping, .closeMapping]
    else .blockMapping :: Value.fieldTokens fields ++ [.blockEnd]
  | v => v.scalar?.toList.map fun s => .scalar s.1 s.2

def Value.itemTokens : List Value → List Token
  | [] => []
  | v :: vs => .blockEntry :: v.tokens false ++ Value.itemTokens vs

def Value.fieldTokens : List (String × Value) → List Token
  | [] => []
  | (k, v) :: fs =>
    .key :: .scalar (styleOf k) k :: .value :: v.tokens (isShortKey k) ++ Value.fieldTokens fs

end

/-! ## what is written -/

def Value.isBlock : Value → Bool
  | .array items => !items.isEmpty
  | .object fields => !fields.isEmpty
  | _ => false

def Value.isList : Value → Bool
  | .array items => !items.isEmpty
  | _ => false

theorem Value.tokens_scalar {v : Value} {style : ScalarStyle} {s : String}
    (h : v.scalar? = some (style, s)) :
    (∀ flat, v.tokens flat = [.scalar style s]) ∧ v.isList = false ∧ v.isBlock = false := by
  cases v with
  | array vs => cases h
  | object fs => cases h
  | null => cases h; exact ⟨fun _ => rfl, rfl, rfl⟩
  | bool b => cases b <;> cases h <;> exact ⟨fun _ => rfl, rfl, rfl⟩
  | number n => cases h; exact ⟨fun _ => rfl, rfl, rfl⟩
  | string s => cases h; exact ⟨fun _ => rfl, rfl, rfl⟩

namespace Yaml

theorem writtenScalar_eq {v : Value} {style : ScalarStyle} {s : String}
    (h : v.scalar? = some (style, s)) (indent : Nat) :
    writtenScalar indent v = writtenAs indent style s.toList := by
  cases v with
  | null => cases h; rfl
  | bool b => cases b <;> cases h <;> rfl
  | number n =>
    cases h
    exact String.toList_ofList.symm
  | string s =>
    cases h
    exact writtenString_eq indent s
  | array vs => cases h
  | object fs => cases h

theorem canStand_scalar {v : Value} {style : ScalarStyle} {s : String}
    (h : v.scalar? = some (style, s)) : CanStand style s.toList := by
  cases v with
  | null =>
    cases h
    exact ⟨by decide, by decide⟩
  | bool b =>
    cases b <;> cases h
    · exact ⟨by decide, by decide⟩
    · exact ⟨by decide, by decide⟩
  | number n =>
    cases h
    rw [String.toList_ofList]
    exact isPlainSafe_number n
  | string s =>
    cases h
    exact canStand_styleOf s
  | array vs => cases h
  | object fs => cases h

theorem yamlChars_scalar {v : Value} {style : ScalarStyle} {s : String}
    (h : v.scalar? = some (style, s)) (column : Nat) :
    v.yamlChars column = endLine (writtenAs column style s.toList) := by
  rw [← writtenScalar_eq h]
  cases v with
  | array vs => cases h
  | object fs => cases h
  | _ => rfl

/-- The column of a value in a collection at a column; a flat sequence is not indented. -/
def columnIn (flat : Bool) (v : Value) (i : Nat) : Nat := if flat && v.isList then i else i + 2

/-- What stands between the colon of a key and the value. -/
def gapBefore (short : Bool) (v : Value) (i : Nat) : List Char :=
  if short && v.isBlock then '\n' :: blanks (columnIn short v i) else [' ']

theorem yamlAfter_eq (short : Bool) (v : Value) (i : Nat) :
    v.yamlAfter i short = gapBefore short v i ++ v.yamlChars (columnIn short v i) := by
  rcases v with _ | b | n | s | (_ | ⟨v, vs⟩) | (_ | ⟨⟨k, v⟩, fs⟩)
  · cases short <;> rfl
  · cases short <;> rfl
  · cases short <;> rfl
  · cases short <;> rfl
  · cases short <;> rfl
  · cases short
    · rfl
    · show '\n' :: blanks i ++ '-' :: ' ' :: v.yamlChars (i + 2) ++ Value.yamlItems i vs
        = '\n' :: blanks i ++ ('-' :: ' ' :: v.yamlChars (i + 2) ++ Value.yamlItems i vs)
      simp
  · cases short <;> rfl
  · cases short
    · show [' '] ++ writtenKey (i + 2) k ++ v.yamlAfter (i + 2) (isShortKey k) ++
        Value.yamlFields (i + 2) fs = [' '] ++ (writtenKey (i + 2) k ++
          v.yamlAfter (i + 2) (isShortKey k) ++ Value.yamlFields (i + 2) fs)
      simp
    · show '\n' :: blanks (i + 2) ++ writtenKey (i + 2) k ++ v.yamlAfter (i + 2) (isShortKey k) ++
        Value.yamlFields (i + 2) fs = '\n' :: blanks (i + 2) ++ (writtenKey (i + 2) k ++
          v.yamlAfter (i + 2) (isShortKey k) ++ Value.yamlFields (i + 2) fs)
      simp

/-- A written scalar starts with its own token also where the end of its line is written with it. -/
theorem atToken_endLine {style : ScalarStyle} (indent : Nat) {cs : List Char}
    (h : CanStand style cs) (tail : List Char) :
    AtToken (endLine (writtenAs indent style cs) ++ tail) := by
  rw [endLine]
  split
  · exact atToken_writtenAs indent h tail
  · rw [List.append_assoc]
    exact atToken_writtenAs indent h _

theorem atToken_writtenKey (i : Nat) (k : String) (tail : List Char) :
    AtToken (writtenKey i k ++ tail) := by
  rw [writtenKey]
  split
  · rw [writtenString_eq, List.append_assoc]
    exact atToken_writtenAs _ (canStand_styleOf k) _
  · exact atToken_char (by decide) _

/-- A written value starts with its own token. -/
theorem atToken_yamlChars (v : Value) (column : Nat) (tail : List Char) :
    AtToken (v.yamlChars column ++ tail) := by
  cases v using Value.induction with
  | scalar v style s hs =>
    rw [yamlChars_scalar hs]
    exact atToken_endLine _ (canStand_scalar hs) tail
  | array vs =>
    cases vs with
    | nil => exact atToken_char (by decide) _
    | cons v vs => exact atToken_char (by decide) _
  | object fs =>
    cases fs with
    | nil => exact atToken_char (by decide) _
    | cons f fs =>
      obtain ⟨k, v⟩ := f
      show AtToken (writtenKey column k ++ v.yamlAfter column (isShortKey k) ++
        Value.yamlFields column fs ++ tail)
      rw [List.append_assoc, List.append_assoc]
      exact atToken_writtenKey column k _

theorem length_le_writtenKey (i : Nat) (k : String) :
    k.toList.length ≤ (writtenKey i k).length := by
  have hk := length_le_writtenAs (i + 2) (styleOf k) k.toList
  rw [← writtenString_eq] at hk
  rw [writtenKey]
  split
  · rw [List.length_append]
    omega
  · have hend := length_le_endLine (writtenString (i + 2) k)
    simp only [List.length_append, List.length_cons]
    omega

end Yaml

end AccessFilter
