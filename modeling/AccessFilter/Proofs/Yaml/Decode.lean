import AccessFilter.Proofs.Value.Fields
import AccessFilter.Proofs.Yaml.Meaning
import AccessFilter.Proofs.Yaml.Node

/-!
# Written values read back

What the readers make of the nodes of written values. Such nodes have no anchors, no tags and no
aliases, so the count of aliases stays as it is.

* `Nested`             a value that can be read: not nested too deep, and no key twice;
* `freeValue_node`     such a value reads back;
* `freeFields_node`    so do the fields of one;
* `nested_of_freeValue`   and only such values are read.
-/

namespace AccessFilter

open Yaml

/-- A value whose collections are nested at most `depth` deep and whose objects hold no key twice. -/
inductive Value.Nested : (depth : Nat) → Value → Prop
  | scalar {depth : Nat} {v : Value} (h : v.scalar?.isSome = true) : Nested depth v
  | array {depth : Nat} {vs : List Value} (h : ∀ v ∈ vs, Nested depth v) :
      Nested (depth + 1) (.array vs)
  | object {depth : Nat} {fs : List (String × Value)} (h : ∀ f ∈ fs, Nested depth f.2)
      (distinct : (Fields.keys fs).Nodup) : Nested (depth + 1) (.object fs)

theorem Value.nested_ofList {depth : Nat} {fields : Fields Value}
    (h : ∀ f ∈ fields, f.2.Nested depth) :
    (Value.object (Fields.ofList fields)).Nested (depth + 1) :=
  .object (Fields.forall_mem_ofList h) (Fields.keys_ofList_nodup fields)

namespace Yaml.Targets

variable {targets : Targets}

/-! ## readers of one node -/

theorem follow_scalar (style : ScalarStyle) (s : String) :
    targets.follow (.scalar none none style s) = pure (.scalar none none style s) := rfl

theorem follow_sequence (ns : List Node) :
    targets.follow (.sequence none none ns) = pure (.sequence none none ns) := rfl

theorem follow_mapping (ps : List (Node × Node)) :
    targets.follow (.mapping none none ps) = pure (.mapping none none ps) := rfl

theorem string_scalar (style : ScalarStyle) (s : String) :
    targets.string (.scalar none none style s) = pure s := rfl

theorem flag_bool (b : Bool) : targets.flag (Value.bool b).node = pure b := by
  cases b <;> rfl

theorem items_array (vs : List Value) :
    targets.items (Value.array vs).node = pure (Value.itemNodes vs) := rfl

theorem pairs_object (fs : List (String × Value)) :
    targets.pairs (Value.object fs).node = pure (Value.fieldNodes fs) := rfl

theorem optional_array (vs : List Value) :
    targets.optional (Value.array vs).node = pure (some (Value.array vs).node) := rfl

theorem optional_object (fs : List (String × Value)) :
    targets.optional (Value.object fs).node = pure (some (Value.object fs).node) := rfl

theorem optionalString_null : targets.optionalString Value.null.node = pure none := rfl

/-- **A string that may be null reads back**, since one that looks like null is quoted. -/
theorem optionalString_string (s : String) :
    targets.optionalString (Value.string s).node = pure (some s) := by
  show targets.optionalString (.scalar none none (styleOf s) s) = _
  have hread : targets.optional (.scalar none none (styleOf s) s)
      = pure (some (.scalar none none (styleOf s) s)) := by
    cases hstyle : styleOf s with
    | plain =>
      show (pure (if (s.isEmpty || isNullWord s) = true then none else some _) : Decode _) = _
      rw [not_null_of_styleOf hstyle]
      rfl
    | _ => rfl
  rw [optionalString, hread, pure_bind]
  rfl

/-! ## values -/

theorem scalarValue_scalar {v : Value} {style : ScalarStyle} {s : String}
    (h : v.scalar? = some (style, s)) : scalarValue none style s = some v := by
  cases v with
  | array vs => cases h
  | object fs => cases h
  | null => cases h; rfl
  | bool b => cases b <;> cases h <;> rfl
  | number n =>
    cases h
    exact ofPlain_number n
  | string s =>
    cases h
    show (if (styleOf s == .plain) = true then Value.ofPlain s else some (.string s)) = _
    split
    · next hplain => exact ofPlain_of_styleOf (eq_of_beq hplain)
    · rfl

theorem itemNodes_eq (vs : List Value) : Value.itemNodes vs = vs.map Value.node := by
  induction vs with
  | nil => rfl
  | cons v vs ih => rw [Value.itemNodes, ih, List.map_cons]

theorem fieldNodes_eq (fs : List (String × Value)) : Value.fieldNodes fs
    = fs.map fun f => (Node.scalar none none (styleOf f.1) f.1, f.2.node) := by
  induction fs with
  | nil => rfl
  | cons f fs ih => rw [Value.fieldNodes, ih, List.map_cons]

theorem mapM_written {α β : Type} {write : α → β} {read : β → Decode α} {as : List α}
    (h : ∀ a ∈ as, read (write a) = pure a) : (as.map write).mapM read = pure as := by
  induction as with
  | nil => rfl
  | cons a as ih =>
    obtain ⟨ha, has⟩ := List.forall_mem_cons.mp h
    rw [List.map_cons, List.mapM_cons, ha, pure_bind, ih has, pure_bind]

theorem freeField_node {depth : Nat} {f : String × Value}
    (h : targets.freeValue depth f.2.node = pure f.2) :
    (do
      let key ← targets.string (Node.scalar none none (styleOf f.1) f.1)
      return (key, ← targets.freeValue depth f.2.node) : Decode (String × Value)) = pure f := by
  rw [string_scalar, pure_bind, h, pure_bind]

/-- **A value that is not nested too deep and holds no key twice reads back.** -/
theorem freeValue_node {depth : Nat} {v : Value} (h : v.Nested depth) :
    targets.freeValue depth v.node = pure v := by
  induction h with
  | @scalar depth v h =>
    obtain ⟨⟨style, s⟩, hs⟩ := Option.isSome_iff_exists.mp h
    rw [Value.node_scalar hs, freeValue, follow_scalar, pure_bind]
    dsimp only
    rw [scalarValue_scalar hs]
  | @array depth vs h ih =>
    rw [Value.node, freeValue, follow_sequence, pure_bind]
    dsimp only
    rw [itemNodes_eq, mapM_written ih, pure_bind]
    rfl
  | @object depth fs h distinct ih =>
    rw [Value.node, freeValue, follow_mapping, pure_bind]
    dsimp only
    rw [fieldNodes_eq, mapM_written fun f hf => freeField_node (ih f hf), pure_bind,
      Fields.ofList_of_nodup distinct]
    rfl

/-- **The fields of such a value read back.** -/
theorem freeFields_node {depth : Nat} {fs : Fields Value} (h : (Value.object fs).Nested (depth + 1)) :
    targets.freeFields depth (Value.object fs).node = pure fs := by
  cases h with
  | scalar h => cases h
  | object h distinct =>
    rw [freeFields, pairs_object, pure_bind, fieldNodes_eq,
      mapM_written fun f hf => freeField_node (freeValue_node (h f hf)), pure_bind,
      Fields.ofList_of_nodup distinct]

end Yaml.Targets

/-! ## what readers give -/

namespace Yaml

/-- Whatever a reader gives has a property. -/
def Yields {α : Type} (reader : Decode α) (P : α → Prop) : Prop :=
  ∀ n a m, reader.run n = .ok (a, m) → P a

section
variable {α β : Type} {P : α → Prop} {Q : β → Prop}

theorem yields_pure {a : α} (h : P a) : Yields (pure a) P := by
  rintro n b m heq
  cases heq
  exact h

theorem yields_throw (e : Fault) : Yields (throw e : Decode α) P := by
  rintro n b m heq
  cases heq

theorem Yields.bind {reader : Decode β} {next : β → Decode α} (h : Yields reader Q)
    (hnext : ∀ b, Q b → Yields (next b) P) : Yields (reader >>= next) P := by
  intro n a m heq
  rw [StateT.run_bind] at heq
  cases hr : reader.run n with
  | error e =>
    rw [hr] at heq
    cases heq
  | ok r =>
    rw [hr] at heq
    exact hnext r.1 (h n r.1 r.2 hr) r.2 a m heq

theorem yields_any (reader : Decode α) : Yields reader fun _ => True := fun _ _ _ _ => trivial

/-- Of a reader whose result does not matter. -/
theorem yields_bind {reader : Decode β} {next : β → Decode α} (h : ∀ b, Yields (next b) P) :
    Yields (reader >>= next) P := (yields_any reader).bind fun b _ => h b

theorem yields_mapM {read : β → Decode α} {bs : List β} (h : ∀ b ∈ bs, Yields (read b) P) :
    Yields (bs.mapM read) fun as => ∀ a ∈ as, P a := by
  induction bs with
  | nil => exact yields_pure nofun
  | cons b bs ih =>
    obtain ⟨hb, hbs⟩ := List.forall_mem_cons.mp h
    rw [List.mapM_cons]
    exact hb.bind fun a ha => (ih hbs).bind fun as has =>
      yields_pure (List.forall_mem_cons.mpr ⟨ha, has⟩)

theorem yields_foldlM {read : α → β → Decode α} {bs : List β} {a : α} (ha : P a)
    (h : ∀ a b, P a → Yields (read a b) P) : Yields (bs.foldlM read a) P := by
  induction bs generalizing a with
  | nil => exact yields_pure ha
  | cons b bs ih =>
    rw [List.foldlM_cons]
    exact (h a b ha).bind fun a' ha' => ih ha'

end

/-! ## what values are read -/

theorem isSome_scalar?_bool (b : Bool) : (Value.bool b).scalar?.isSome = true := by
  cases b <;> rfl

theorem isSome_scalar?_doubleValue {s : String} {v : Value} (h : doubleValue? s = some v) :
    v.scalar?.isSome = true := by
  rw [doubleValue?] at h
  split at h
  · cases h
    rfl
  · obtain ⟨x, -, rfl⟩ := Option.map_eq_some_iff.mp h
    rfl

theorem isSome_scalar?_float {s : String} {v : Value}
    (h : (if isPadded s.toList then some (Value.string s)
      else some ((doubleValue? s).getD (.string s))) = some v) : v.scalar?.isSome = true := by
  split at h
  · cases h
    rfl
  · cases hx : doubleValue? s with
    | none =>
      rw [hx] at h
      cases h
      rfl
    | some w =>
      rw [hx] at h
      cases h
      exact isSome_scalar?_doubleValue hx

theorem isSome_scalar?_ofPlain {s : String} {v : Value} (h : Value.ofPlain s = some v) :
    v.scalar?.isSome = true := by
  rw [Value.ofPlain] at h
  split at h
  · cases h
    rfl
  split at h
  · cases h
    exact isSome_scalar?_bool _
  dsimp only at h
  split at h
  · split at h
    · cases h
      rfl
    · split at h
      · cases h
      · exact isSome_scalar?_float h
  · exact isSome_scalar?_float h

/-- A scalar of a document means no collection, whatever its tag. -/
theorem isSome_scalar?_scalarValue {tag : Option Tag} {style : ScalarStyle} {s : String} {v : Value}
    (h : Targets.scalarValue tag style s = some v) : v.scalar?.isSome = true := by
  cases tag with
  | none =>
    rw [Targets.scalarValue] at h
    split at h
    · exact isSome_scalar?_ofPlain h
    · cases h
      rfl
  | some tag =>
    change Value.ofTagged tag (style == .plain) s = some v at h
    cases tag with
    | null =>
      rw [Value.ofTagged] at h
      split at h
      · cases h
        rfl
      · cases h
    | bool =>
      obtain ⟨b, -, rfl⟩ := Option.map_eq_some_iff.mp h
      exact isSome_scalar?_bool b
    | int =>
      obtain ⟨n, -, rfl⟩ := Option.map_eq_some_iff.mp h
      rfl
    | float => exact isSome_scalar?_doubleValue h
    | own => cases h
    | unreadable =>
      rw [Value.ofTagged] at h
      split at h
      · exact isSome_scalar?_ofPlain h
      · cases h
        rfl
    | other =>
      cases h
      rfl

namespace Targets

variable {targets : Targets}

theorem yields_field {depth : Nat} {p : Node × Node}
    (h : Yields (targets.freeValue depth p.2) (Value.Nested depth)) :
    Yields (do
      let key ← targets.string p.1
      return (key, ← targets.freeValue depth p.2) : Decode (String × Value))
      fun f => f.2.Nested depth :=
  yields_bind fun _ => h.bind fun _ hv => yields_pure hv

/-- **Only values that are not nested too deep and hold no key twice are read.** -/
theorem nested_of_freeValue (depth : Nat) (n : Node) :
    Yields (targets.freeValue depth n) (Value.Nested depth) := by
  induction depth generalizing n with
  | zero =>
    rw [freeValue]
    refine yields_bind fun n => ?_
    cases n with
    | scalar anchor tag style text =>
      dsimp only
      split
      · next hv => exact yields_pure (.scalar (isSome_scalar?_scalarValue hv))
      · exact yields_throw _
    | _ => exact yields_throw _
  | succ depth ih =>
    rw [freeValue]
    refine yields_bind fun n => ?_
    cases n with
    | scalar anchor tag style text =>
      dsimp only
      split
      · next hv => exact yields_pure (.scalar (isSome_scalar?_scalarValue hv))
      · exact yields_throw _
    | sequence anchor tag items =>
      dsimp only
      split
      · exact yields_throw _
      · exact (yields_mapM fun n _ => ih n).bind fun vs hvs => yields_pure (.array hvs)
    | mapping anchor tag pairs =>
      dsimp only
      split
      · exact yields_throw _
      · exact (yields_mapM fun p _ => yields_field (ih p.2)).bind fun fs hfs =>
          yields_pure (Value.nested_ofList hfs)
    | _ => exact yields_throw _

/-- The fields of a mapping are those of such a value. -/
theorem nested_of_freeFields (depth : Nat) (n : Node) :
    Yields (targets.freeFields depth n) fun fs => (Value.object fs).Nested (depth + 1) :=
  yields_bind fun _ => (yields_mapM fun p _ => yields_field (nested_of_freeValue depth p.2)).bind
    fun _ hfs => yields_pure (Value.nested_ofList hfs)

end Targets

/-! ## whole texts -/

variable {α : Type} {reader : Targets → Node → Decode α} {text : String} {a : α}

theorem decode_eq_ok {root : Node} (hdocument : Document.ofText text = ⟨root, true⟩)
    (hread : ∀ targets, reader targets root = pure a) : decode reader text = .ok a := by
  rw [decode, hdocument, hread]
  rfl

/-- What a reader gives is read from any text. -/
theorem of_decode {P : α → Prop} (h : ∀ targets n, Yields (reader targets n) P)
    (hdecode : decode reader text = .ok a) : P a := by
  rw [decode] at hdecode
  split at hdecode
  · cases hdecode
  · next hrun =>
    split at hdecode
    · cases hdecode
      exact h _ _ _ _ _ hrun
    · cases hdecode

end Yaml

end AccessFilter
