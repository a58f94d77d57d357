import AccessFilter.Operator.Registry
import AccessFilter.Proofs.Value.Fields
import Mathlib.Data.List.Sort
import Mathlib.Data.String.Basic

/-!
# What is in a registry

The operations keep two properties of the symbols: they increase strictly, and each has the form
`$name`. Such a registry is given by what it resolves. So it does not matter in which order the
entries of another registry are laid over it, and laying over is associative and idempotent.

* `Registry.WellFormed`     the two properties, kept by every operation;
* `WellFormed.mem_symbols_iff`   the symbols are those that are resolved;
* `WellFormed.sort_keys_of_perm`   they are the sorted symbols of the entries in any order;
* `WellFormed.ext`          registries that resolve every symbol alike are the same;
* `resolve?_overlay`        of two registries the upper one wins;
* `overlay_of_perm`, `overlay_assoc`, `overlay_again`   the laws of laying over.
-/

namespace AccessFilter

/-- A proper symbol is a dollar sign with a name behind it. -/
theorem exists_name_of_isOperatorSymbol {key : String} (h : isOperatorSymbol key = true) :
    ∃ name, name ≠ "" ∧ key = "$" ++ name := by
  unfold isOperatorSymbol at h
  split at h
  · next c cs hkey =>
    refine ⟨String.ofList (c :: cs), ?_, ?_⟩
    · intro hempty
      have hlist := congrArg String.toList hempty
      simp at hlist
    · apply String.toList_injective
      simp [hkey]
  · cases h

namespace Registry

/-- What the operations keep of the symbols. -/
structure WellFormed (r : Registry) : Prop where
  increasing : r.symbols.Pairwise (· < ·)
  proper : ∀ symbol ∈ r.symbols, isOperatorSymbol symbol = true

/-! ## one entry more -/

theorem mem_keys_insertEntry (symbol other : String) (op : Operator)
    (es : List (String × Operator)) :
    other ∈ Fields.keys (insertEntry symbol op es) ↔ other = symbol ∨ other ∈ Fields.keys es := by
  rw [← not_iff_not, not_or, ← Fields.find?_eq_none_iff, ← Fields.find?_eq_none_iff]
  by_cases h : other = symbol
  · subst h
    simp [find?_insertEntry_self]
  · rw [find?_insertEntry_of_ne symbol other op h]
    exact ⟨fun hnone => ⟨h, hnone⟩, And.right⟩

theorem increasing_insertEntry (symbol : String) (op : Operator) {es : List (String × Operator)}
    (h : (Fields.keys es).Pairwise (· < ·)) :
    (Fields.keys (insertEntry symbol op es)).Pairwise (· < ·) := by
  induction es with
  | nil => exact List.pairwise_singleton _ _
  | cons e es ih =>
    obtain ⟨s, o⟩ := e
    obtain ⟨hs, hes⟩ := List.pairwise_cons.mp h
    unfold insertEntry
    split
    · next hlt =>
      refine List.pairwise_cons.mpr ⟨fun other hother => ?_, h⟩
      rcases List.mem_cons.mp hother with rfl | hother
      · exact hlt
      · exact hlt.trans (hs other hother)
    · next hnot =>
      split
      · next heq =>
        subst heq
        exact List.pairwise_cons.mpr ⟨hs, hes⟩
      · next hne =>
        -- the symbol belongs further on, behind the first one
        have hlt : s < symbol := lt_of_le_of_ne (not_lt.mp hnot) (Ne.symm hne)
        refine List.pairwise_cons.mpr ⟨fun other hother => ?_, ih hes⟩
        rcases (mem_keys_insertEntry symbol other op es).mp hother with rfl | hother
        · exact hlt
        · exact hs other hother

theorem wellFormed_empty : empty.WellFormed := ⟨.nil, nofun⟩

namespace WellFormed

variable {r other : Registry}

theorem insert (h : r.WellFormed) {symbol : String} (hs : isOperatorSymbol symbol = true)
    (op : Operator) : (r.insert symbol op).WellFormed := by
  refine ⟨increasing_insertEntry symbol op h.increasing, fun s hmem => ?_⟩
  rcases (mem_keys_insertEntry symbol s op r.entries).mp hmem with rfl | hmem
  · exact hs
  · exact h.proper s hmem

theorem withComparisons (h : r.WellFormed) : r.withComparisons.WellFormed :=
  (((((h.insert rfl _).insert rfl _).insert rfl _).insert rfl _).insert rfl _).insert rfl _

theorem insertAll (h : r.WellFormed) {es : List (String × Operator)}
    (hes : ∀ e ∈ es, isOperatorSymbol e.1 = true) :
    (es.foldl (fun acc e => acc.insert e.1 e.2) r).WellFormed := by
  induction es generalizing r with
  | nil => exact h
  | cons e es ih =>
    obtain ⟨he, hes⟩ := List.forall_mem_cons.mp hes
    exact ih (h.insert he e.2) hes

theorem overlay (h : r.WellFormed) (ho : other.WellFormed) : (r.overlay other).WellFormed :=
  h.insertAll fun e he => ho.proper e.1 (List.mem_map_of_mem he)

theorem nodup (h : r.WellFormed) : (Fields.keys r.entries).Nodup :=
  h.increasing.imp ne_of_lt

theorem mem_symbols_iff (symbol : String) :
    symbol ∈ r.symbols ↔ (r.resolve? symbol).isSome = true := by
  rw [← Option.ne_none_iff_isSome, Ne, resolve?, Fields.find?_eq_none_iff, not_not]
  rfl

/-- In whatever order the entries come, sorting brings their symbols in this order. -/
theorem sort_keys_of_perm (h : r.WellFormed) {es : List (String × Operator)}
    (hes : es.Perm r.entries) : (Fields.keys es).mergeSort (· ≤ ·) = r.symbols := by
  have hsorted : ((Fields.keys es).mergeSort (· ≤ ·)).Pairwise (· ≤ ·) := by
    refine (List.pairwise_mergeSort (fun a b c hab hbc => ?_) (fun a b => ?_) _).imp of_decide_eq_true
    · exact decide_eq_true ((of_decide_eq_true hab).trans (of_decide_eq_true hbc))
    · simpa using le_total a b
  have hperm : ((Fields.keys es).mergeSort (· ≤ ·)).Perm r.symbols :=
    (List.mergeSort_perm _ _).trans (hes.map _)
  exact hperm.eq_of_pairwise (fun a b _ _ => le_antisymm) hsorted (h.increasing.imp le_of_lt)

/-- Registries that resolve every symbol alike are the same. -/
theorem ext (h : r.WellFormed) (ho : other.WellFormed)
    (same : ∀ symbol, r.resolve? symbol = other.resolve? symbol) : r = other := by
  have hmem : ∀ e, e ∈ r.entries ↔ e ∈ other.entries := by
    rintro ⟨symbol, op⟩
    rw [← Fields.find?_eq_some_iff h.nodup, ← Fields.find?_eq_some_iff ho.nodup]
    exact Eq.congr_left (same symbol)
  have hperm : r.entries.Perm other.entries :=
    (List.perm_ext_iff_of_nodup h.nodup.of_map ho.nodup.of_map).mpr hmem
  have hentries : r.entries = other.entries :=
    hperm.eq_of_pairwise (fun e f _ _ hlt hgt => absurd hgt hlt.asymm)
      (List.pairwise_map.mp h.increasing) (List.pairwise_map.mp ho.increasing)
  cases r
  cases other
  exact congrArg Registry.mk hentries

end WellFormed

theorem wellFormed_standard : standard.WellFormed :=
  (wellFormed_empty.insert rfl _).insert rfl _

/-! ## one registry over another -/

/-- Entries with distinct symbols win over what was there, in whatever order they come. -/
theorem resolve?_insertAll {es : List (String × Operator)} (nodup : (Fields.keys es).Nodup)
    (r : Registry) (symbol : String) :
    (es.foldl (fun acc e => acc.insert e.1 e.2) r).resolve? symbol
      = (Fields.find? symbol es).or (r.resolve? symbol) := by
  induction es generalizing r with
  | nil => rfl
  | cons e es ih =>
    obtain ⟨s, op⟩ := e
    obtain ⟨hs, hes⟩ := List.nodup_cons.mp nodup
    rw [List.foldl_cons, ih hes]
    by_cases h : s = symbol
    · subst h
      rw [(Fields.find?_eq_none_iff s es).mpr hs, resolve?_insert_self, Fields.find?, if_pos rfl]
      rfl
    · rw [resolve?_insert_of_ne _ _ _ _ (Ne.symm h), Fields.find?, if_neg h]

section
variable {a b c : Registry}

theorem resolve?_overlay (hb : b.WellFormed) (symbol : String) :
    (a.overlay b).resolve? symbol = (b.resolve? symbol).or (a.resolve? symbol) :=
  resolve?_insertAll hb.nodup a symbol

/-- The entries of the upper registry may come in any order. -/
theorem overlay_of_perm (ha : a.WellFormed) (hb : b.WellFormed) {es : List (String × Operator)}
    (h : es.Perm b.entries) : es.foldl (fun acc e => acc.insert e.1 e.2) a = a.overlay b := by
  have hkeys : (Fields.keys es).Perm (Fields.keys b.entries) := h.map _
  have nodup : (Fields.keys es).Nodup := hkeys.nodup_iff.mpr hb.nodup
  have proper : ∀ e ∈ es, isOperatorSymbol e.1 = true := fun e he =>
    hb.proper e.1 (List.mem_map_of_mem (h.mem_iff.mp he))
  apply (ha.insertAll proper).ext (ha.overlay hb)
  intro symbol
  rw [resolve?_insertAll nodup, resolve?_overlay hb, Fields.find?_perm nodup h]
  rfl

theorem overlay_assoc (ha : a.WellFormed) (hb : b.WellFormed) (hc : c.WellFormed) :
    (a.overlay b).overlay c = a.overlay (b.overlay c) := by
  apply ((ha.overlay hb).overlay hc).ext (ha.overlay (hb.overlay hc))
  intro symbol
  rw [resolve?_overlay hc, resolve?_overlay hb, resolve?_overlay (hb.overlay hc),
    resolve?_overlay hc, Option.or_assoc]

/-- A registry that is laid over once more changes nothing. -/
theorem overlay_again (ha : a.WellFormed) (hb : b.WellFormed) :
    (a.overlay b).overlay b = a.overlay b := by
  apply ((ha.overlay hb).overlay hb).ext (ha.overlay hb)
  intro symbol
  rw [resolve?_overlay hb, resolve?_overlay hb, ← Option.or_assoc, Option.or_self]

theorem overlay_self (ha : a.WellFormed) : a.overlay a = a := by
  apply (ha.overlay ha).ext ha
  intro symbol
  rw [resolve?_overlay ha, Option.or_self]

end

end Registry

end AccessFilter
