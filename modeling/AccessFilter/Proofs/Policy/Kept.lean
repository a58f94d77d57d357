import AccessFilter.Policy.Folder
import Mathlib.Data.List.Sort
import Mathlib.Data.String.Basic

/-!
# Documents in the order of their paths

* `Increasing docs`            the paths of documents increase strictly;
* `keepDocument_increasing`    keeping a document preserves this;
* `Increasing.mem_keepDocument_iff`   what is kept then: the document, and what was kept under other
                               paths;
* `Increasing.ext`             documents in order are given by which they are;
* `Increasing.find?_eq_some_iff`   the first document with a property is the one of smallest path.
-/

namespace AccessFilter

def Increasing (docs : List (FilePath × Policy)) : Prop :=
  docs.Pairwise fun d e => d.1 < e.1

/-! ## keeping a document -/

theorem mem_keepDocument_of_ne {path : FilePath} {d : FilePath × Policy} (p : Policy)
    (docs : List (FilePath × Policy)) (hd : d ∈ docs) (hne : d.1 ≠ path) :
    d ∈ keepDocument path p docs := by
  induction docs with
  | nil => cases hd
  | cons e rest ih =>
    obtain ⟨other, q⟩ := e
    rw [keepDocument]
    split_ifs with hlt heq
    · exact List.mem_cons_of_mem _ hd
    · rcases List.mem_cons.mp hd with rfl | hd
      · exact absurd heq.symm hne
      · exact List.mem_cons_of_mem _ hd
    · rcases List.mem_cons.mp hd with rfl | hd
      · exact List.mem_cons_self
      · exact List.mem_cons_of_mem _ (ih hd)

theorem mem_keepDocument_self (path : FilePath) (p : Policy) (docs : List (FilePath × Policy)) :
    (path, p) ∈ keepDocument path p docs := by
  induction docs with
  | nil => exact List.mem_cons_self
  | cons e rest ih =>
    obtain ⟨other, q⟩ := e
    rw [keepDocument]
    split_ifs with hlt heq
    · exact List.mem_cons_self
    · exact List.mem_cons_self
    · exact List.mem_cons_of_mem _ ih

theorem eq_or_mem_of_mem_keepDocument {path : FilePath} {p : Policy} {d : FilePath × Policy}
    (docs : List (FilePath × Policy)) (hd : d ∈ keepDocument path p docs) :
    d = (path, p) ∨ d ∈ docs := by
  induction docs with
  | nil => exact Or.inl (List.mem_singleton.mp hd)
  | cons e rest ih =>
    obtain ⟨other, q⟩ := e
    rw [keepDocument] at hd
    split_ifs at hd with hlt heq
    · exact List.mem_cons.mp hd
    · rcases List.mem_cons.mp hd with rfl | hd
      · exact Or.inl rfl
      · exact Or.inr (List.mem_cons_of_mem _ hd)
    · rcases List.mem_cons.mp hd with rfl | hd
      · exact Or.inr List.mem_cons_self
      · exact (ih hd).imp_right (List.mem_cons_of_mem _)

theorem keepDocument_increasing (path : FilePath) (p : Policy) {docs : List (FilePath × Policy)}
    (h : Increasing docs) : Increasing (keepDocument path p docs) := by
  induction docs with
  | nil => exact List.pairwise_singleton _ _
  | cons e rest ih =>
    obtain ⟨other, q⟩ := e
    obtain ⟨hfirst, hrest⟩ := List.pairwise_cons.mp h
    rw [keepDocument]
    split_ifs with hlt heq
    · refine List.pairwise_cons.mpr ⟨fun d hd => ?_, h⟩
      rcases List.mem_cons.mp hd with rfl | hd
      · exact hlt
      · exact hlt.trans (hfirst d hd)
    · subst heq
      exact List.pairwise_cons.mpr ⟨hfirst, hrest⟩
    · refine List.pairwise_cons.mpr ⟨fun d hd => ?_, ih hrest⟩
      rcases eq_or_mem_of_mem_keepDocument rest hd with rfl | hd
      · exact lt_of_le_of_ne (not_lt.mp hlt) (Ne.symm heq)
      · exact hfirst d hd

namespace Increasing

variable {docs docs' : List (FilePath × Policy)}

theorem eq_of_path_eq (h : Increasing docs) {d e : FilePath × Policy} (hd : d ∈ docs)
    (he : e ∈ docs) (hp : d.1 = e.1) : d = e := by
  induction docs with
  | nil => cases hd
  | cons a rest ih =>
    obtain ⟨hfirst, hrest⟩ := List.pairwise_cons.mp h
    rcases List.mem_cons.mp hd with rfl | hd' <;> rcases List.mem_cons.mp he with rfl | he'
    · rfl
    · exact absurd hp (hfirst e he').ne
    · exact absurd hp (hfirst d hd').ne'
    · exact ih hrest hd' he'

theorem mem_keepDocument_iff (h : Increasing docs) (path : FilePath) (p : Policy)
    (d : FilePath × Policy) :
    d ∈ keepDocument path p docs ↔ d = (path, p) ∨ d ∈ docs ∧ d.1 ≠ path := by
  constructor
  · intro hd
    by_cases hp : d.1 = path
    · exact Or.inl ((keepDocument_increasing path p h).eq_of_path_eq hd
        (mem_keepDocument_self path p docs) hp)
    · rcases eq_or_mem_of_mem_keepDocument docs hd with rfl | hd
      · exact absurd rfl hp
      · exact Or.inr ⟨hd, hp⟩
  · rintro (rfl | ⟨hd, hp⟩)
    · exact mem_keepDocument_self _ _ docs
    · exact mem_keepDocument_of_ne p docs hd hp

theorem ext (h : Increasing docs) (h' : Increasing docs') (hmem : ∀ d, d ∈ docs ↔ d ∈ docs') :
    docs = docs' := by
  have nodup : ∀ {docs : List (FilePath × Policy)}, Increasing docs → docs.Nodup :=
    fun h => h.imp fun hlt heq => absurd (congrArg Prod.fst heq) hlt.ne
  have hperm := (List.perm_ext_iff_of_nodup (nodup h) (nodup h')).mpr hmem
  exact hperm.eq_of_pairwise (fun d e _ _ hlt hgt => absurd hgt hlt.asymm) h h'

/-- The first document with a property is the one of smallest path among those that have it. -/
theorem find?_eq_some_iff (h : Increasing docs) (f : FilePath × Policy → Bool)
    (d : FilePath × Policy) :
    docs.find? f = some d ↔ d ∈ docs ∧ f d = true ∧ ∀ e ∈ docs, f e = true → ¬ e.1 < d.1 := by
  induction docs with
  | nil => simp
  | cons a rest ih =>
    obtain ⟨hfirst, hrest⟩ := List.pairwise_cons.mp h
    by_cases ha : f a = true
    · rw [List.find?_cons_of_pos ha, Option.some_inj]
      constructor
      · rintro rfl
        refine ⟨List.mem_cons_self, ha, fun e he _ => ?_⟩
        rcases List.mem_cons.mp he with rfl | he
        · exact lt_irrefl _
        · exact (hfirst e he).asymm
      · rintro ⟨hd, -, hmin⟩
        rcases List.mem_cons.mp hd with rfl | hd
        · rfl
        · exact absurd (hfirst d hd) (hmin a List.mem_cons_self ha)
    · rw [List.find?_cons_of_neg ha, ih hrest]
      constructor
      · rintro ⟨hd, hf, hmin⟩
        refine ⟨List.mem_cons_of_mem _ hd, hf, fun e he hfe => ?_⟩
        rcases List.mem_cons.mp he with rfl | he
        · exact absurd hfe ha
        · exact hmin e he hfe
      · rintro ⟨hd, hf, hmin⟩
        rcases List.mem_cons.mp hd with rfl | hd
        · exact absurd hf ha
        · exact ⟨hd, hf, fun e he => hmin e (List.mem_cons_of_mem _ he)⟩

end Increasing

end AccessFilter
