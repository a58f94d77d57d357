import AccessFilter.Proofs.Policy.FirstLoad
import AccessFilter.Proofs.Policy.History
import Mathlib.Algebra.GroupWithZero.Nat

/-!
# Documents with one identifier

In a first visit all that is kept lies before what is still to come. So of the documents with one
identifier the first is kept and stands in the way of the others, and a second visit finds each
document at its own path and does the same again.

* `FileTree.Scans`, `First`    a file that is read, and the first document with its identifier;
* `LoadResult.loaded?`         what a result says of a document that is loaded;
* `PolicyFolder.Sweeps`        a folder in a visit in increasing order; `Sweeps.next` is one step of it;
* `Sweeps.loaded_offerAll`     documents are kept as they are loaded, in this order;
* `Sweeps.exists_kept_le`      what becomes of each document;
* `loadAll_fresh_first`        a first call, and the same call again.
-/

namespace AccessFilter

/-! ## the files of a tree that are read -/

namespace FileTree

/-- At the path stands a file that is read: below a root folder its name is that of a YAML file and
starts with no dot. -/
structure Scans (tree : FileTree) (path : FilePath) (text : Option String) : Prop where
  named : ∀ name ∈ path.getLast?, isHiddenName name = false ∧ isYamlName name = true
  listed : (path, text) ∈ tree.files

/-- The first enabled valid document with its identifier. -/
structure First (tree : FileTree) (path : FilePath) (p : Policy) : Prop where
  holds : tree.Holds path p
  least : ∀ other q, tree.Holds other q → q.metadata.id = p.metadata.id → path ≤ other

theorem Scans.candidate {tree : FileTree} {path : FilePath} {text : Option String}
    (h : tree.Scans path text) : (path, .ofText text) ∈ tree.candidates := by
  have hlisted := h.listed
  cases tree with
  | file other =>
    rw [files] at hlisted
    cases List.mem_singleton.mp hlisted
    exact List.mem_singleton_self _
  | folder entries =>
    have hfile : Candidate.ofFile path text = Candidate.ofText text := by
      rw [files] at hlisted
      obtain ⟨name, below, hpath⟩ := fst_of_mem_filesIn hlisted
      have hlast : path.getLast? = some (path.getLast?.getD "") := by
        rw [show path = name :: below from hpath, List.getLast?_cons]
        rfl
      obtain ⟨hshown, hyaml⟩ := h.named _ hlast
      rw [Candidate.ofFile, hshown, hyaml]
      rfl
    rw [← hfile]
    exact List.mem_map.mpr ⟨(path, text), (visited_perm _).mem_iff.mpr hlisted, rfl⟩

/-- With distinct names there is one file at a path. -/
theorem text_unique {tree : FileTree} (distinct : tree.Distinct) {path : FilePath}
    {a b : Option String} (ha : (path, a) ∈ tree.files) (hb : (path, b) ∈ tree.files) : a = b :=
  congrArg Prod.snd (List.inj_on_of_nodup_map (nodup_files distinct) ha hb rfl)

end FileTree

/-! ## results that load a document -/

/-- Path, identifier and number of rules of a document that is loaded. -/
def LoadResult.loaded? : LoadResult → Option (FilePath × String × Nat)
  | ⟨path, .loaded id rules⟩ => some (path, id, rules)
  | _ => none

/-- Path, identifier and number of rules of a document that is kept. -/
def entryOf (d : FilePath × Policy) : FilePath × String × Nat :=
  (d.1, d.2.metadata.id, d.2.rules.length)

theorem LoadResult.loaded?_eq_some_iff (r : LoadResult) (path : FilePath) (id : String)
    (rules : Nat) : r.loaded? = some (path, id, rules) ↔ r = ⟨path, .loaded id rules⟩ := by
  obtain ⟨other, status⟩ := r
  cases status <;> simp [loaded?]

namespace PolicyFolder

/-- What becomes of a candidate that is passed over does not depend on the folder. -/
theorem skipped_of_passed (folder : PolicyFolder) {cs : List (FilePath × Candidate)}
    {path : FilePath} {reason : SkipReason} (h : (path, .passed reason) ∈ cs) :
    ⟨path, .skipped reason⟩ ∈ (folder.offerAll cs).1 := by
  induction cs generalizing folder with
  | nil => cases h
  | cons c rest ih =>
    rcases List.mem_cons.mp h with rfl | h
    · exact List.mem_cons_self
    · exact List.mem_cons_of_mem _ (ih _ h)

/-! ## a visit in increasing order -/

/-- A folder in a visit in increasing order of paths. -/
structure Sweeps (folder : PolicyFolder) (cs : List (FilePath × Candidate)) : Prop where
  ordered : cs.Pairwise fun a b => a.1 < b.1
  behind : ∀ d ∈ folder.documents, ∀ c ∈ cs, d.1 < c.1

namespace Sweeps

variable {folder : PolicyFolder}

/-- A document is refused for one kept before, or its identifier is new and it is kept at the end. -/
theorem offer_document {path : FilePath} {p : Policy} {rest : List (FilePath × Candidate)}
    (h : folder.Sweeps ((path, .document p) :: rest)) :
    (∃ d ∈ folder.documents, d.2.metadata.id = p.metadata.id ∧
      folder.offer path (.document p)
        = (.failed (.duplicate p.metadata.id (pathText folder.root d.1)), folder)) ∨
    folder.offer path (.document p) = (.loaded p.metadata.id p.rules.length,
      { folder with documents := folder.documents ++ [(path, p)] }) := by
  have hbefore : ∀ d ∈ folder.documents, d.1 < path :=
    fun d hd => h.behind d hd _ List.mem_cons_self
  rw [offer]
  cases hfind : folder.documents.find? (isTakenBy path p.metadata.id) with
  | some d =>
    have htaken := (isTakenBy_iff path _ d).mp (List.find?_some hfind)
    exact Or.inl ⟨d, List.mem_of_find?_eq_some hfind, htaken.2, rfl⟩
  | none =>
    refine Or.inr ?_
    show (_, { folder with documents := keepDocument path p folder.documents }) = _
    rw [keepDocument_of_lt p hbefore]

/-- A candidate adds at the end what its result says. -/
theorem entries_offer {c : FilePath × Candidate} {rest : List (FilePath × Candidate)}
    (h : folder.Sweeps (c :: rest)) :
    (folder.offer c.1 c.2).2.documents.map entryOf = folder.documents.map entryOf
      ++ (LoadResult.loaded? ⟨c.1, (folder.offer c.1 c.2).1⟩).toList := by
  obtain ⟨path, c⟩ := c
  cases c with
  | passed reason => exact (List.append_nil _).symm
  | faulty cause => exact (List.append_nil _).symm
  | document p =>
    rcases h.offer_document with ⟨d, -, -, ho⟩ | ho <;> rw [ho]
    · exact (List.append_nil _).symm
    · exact List.map_append

theorem mem_offer {c : FilePath × Candidate} {rest : List (FilePath × Candidate)}
    (h : folder.Sweeps (c :: rest)) {d : FilePath × Policy} (hd : d ∈ folder.documents) :
    d ∈ (folder.offer c.1 c.2).2.documents := by
  rcases folder.offer_cases c.1 c.2 with ⟨ho, -⟩ | ⟨p, -, -, ho⟩ <;> rw [ho]
  · exact hd
  · exact mem_keepDocument_of_ne p _ hd (h.behind d hd c List.mem_cons_self).ne

theorem next {c : FilePath × Candidate} {rest : List (FilePath × Candidate)}
    (h : folder.Sweeps (c :: rest)) : (folder.offer c.1 c.2).2.Sweeps rest := by
  obtain ⟨hfirst, hrest⟩ := List.pairwise_cons.mp h.ordered
  refine ⟨hrest, fun d hd c' hc' => ?_⟩
  rcases folder.offer_cases c.1 c.2 with ⟨ho, -⟩ | ⟨p, -, -, ho⟩ <;> rw [ho] at hd
  · exact h.behind d hd c' (List.mem_cons_of_mem _ hc')
  · rcases eq_or_mem_of_mem_keepDocument _ hd with rfl | hd
    · exact hfirst c' hc'
    · exact h.behind d hd c' (List.mem_cons_of_mem _ hc')

theorem entries_offerAll {cs : List (FilePath × Candidate)} (h : folder.Sweeps cs) :
    (folder.offerAll cs).2.documents.map entryOf = folder.documents.map entryOf
      ++ (folder.offerAll cs).1.filterMap LoadResult.loaded? := by
  induction cs generalizing folder with
  | nil => exact (List.append_nil _).symm
  | cons c rest ih =>
    rw [offerAll, ih h.next, h.entries_offer, List.append_assoc]
    congr 1
    cases hr : LoadResult.loaded? ⟨c.1, (folder.offer c.1 c.2).1⟩ <;> simp [hr]

theorem mem_offerAll {cs : List (FilePath × Candidate)} (h : folder.Sweeps cs)
    {d : FilePath × Policy} (hd : d ∈ folder.documents) : d ∈ (folder.offerAll cs).2.documents := by
  induction cs generalizing folder with
  | nil => exact hd
  | cons c rest ih => exact ih h.next (h.mem_offer hd)

/-- A document is loaded, or it is refused and the result names a document before it that has its
identifier and stays. -/
theorem exists_kept_le {cs : List (FilePath × Candidate)} (h : folder.Sweeps cs) {path : FilePath}
    {p : Policy} (hp : (path, .document p) ∈ cs) :
    ∃ d ∈ (folder.offerAll cs).2.documents, d.2.metadata.id = p.metadata.id ∧
      (d = (path, p) ∨ d.1 < path ∧
        ⟨path, .failed (.duplicate p.metadata.id (pathText folder.root d.1))⟩
          ∈ (folder.offerAll cs).1) := by
  induction cs generalizing folder with
  | nil => cases hp
  | cons c rest ih =>
    rcases List.mem_cons.mp hp with rfl | hp
    · rcases h.offer_document with ⟨d, hd, hid, ho⟩ | ho
      · have hlt := h.behind d hd _ List.mem_cons_self
        refine ⟨d, h.mem_offerAll hd, hid, Or.inr ⟨hlt, ?_⟩⟩
        rw [offerAll, ho]
        exact List.mem_cons_self
      · have hmem : (path, p) ∈ (folder.offer path (.document p)).2.documents := by
          rw [ho]
          exact List.mem_append_right _ List.mem_cons_self
        exact ⟨(path, p), h.next.mem_offerAll hmem, rfl, Or.inl rfl⟩
    · obtain ⟨d, hd, hid, hcase⟩ := ih h.next hp
      rw [offer_root] at hcase
      exact ⟨d, hd, hid, hcase.imp_right (And.imp_right (List.mem_cons_of_mem _))⟩

end Sweeps

/-! ## a first call -/

section
variable (root : String) {tree : FileTree}

theorem sweeps_fresh (distinct : tree.Distinct) : (fresh root).Sweeps tree.candidates :=
  ⟨FileTree.candidates_increasing distinct, nofun⟩

theorem consistent_fresh (tree : FileTree) :
    Consistent ((fresh root).offerAll tree.candidates).2.documents :=
  offerAll_consistent Consistent.nil fun _ _ hp => (FileTree.holds_of_candidate hp).inForce

theorem holds_of_mem_fresh {d : FilePath × Policy}
    (hd : d ∈ ((fresh root).offerAll tree.candidates).2.documents) : tree.Holds d.1 d.2 := by
  rcases mem_offerAll_cases (fresh_increasing root) hd with ⟨hnone, -⟩ | ⟨hc, -⟩
  · cases hnone
  · exact FileTree.holds_of_candidate hc

/-- The first call keeps the first document of each identifier. -/
theorem mem_fresh_iff_first (distinct : tree.Distinct) (path : FilePath) (p : Policy) :
    (path, p) ∈ ((fresh root).offerAll tree.candidates).2.documents ↔ tree.First path p := by
  constructor
  · intro hmem
    refine ⟨holds_of_mem_fresh root hmem, fun other q hq hid => ?_⟩
    obtain ⟨d, hd, hdid, hcase⟩ := (sweeps_fresh root distinct).exists_kept_le hq.candidate
    -- no other document with the identifier is kept
    cases (consistent_fresh root tree).distinct d hd _ hmem (hdid.trans hid)
    rcases hcase with heq | ⟨hlt, -⟩
    · exact (congrArg Prod.fst heq).le
    · exact hlt.le
  · intro hfirst
    obtain ⟨d, hd, hdid, rfl | ⟨hlt, -⟩⟩ :=
      (sweeps_fresh root distinct).exists_kept_le hfirst.holds.candidate
    · exact hd
    · exact absurd hlt (hfirst.least d.1 d.2 (holds_of_mem_fresh root hd) hdid).not_gt

theorem exists_first_of_holds (distinct : tree.Distinct) {path : FilePath} {p : Policy}
    (h : tree.Holds path p) (hlater : ¬ tree.First path p) :
    ∃ first q, tree.First first q ∧ q.metadata.id = p.metadata.id ∧
      ⟨path, .failed (.duplicate p.metadata.id (pathText root first))⟩
        ∈ ((fresh root).offerAll tree.candidates).1 := by
  obtain ⟨⟨first, q⟩, hd, hid, heq | ⟨-, hr⟩⟩ :=
    (sweeps_fresh root distinct).exists_kept_le h.candidate
  · cases heq
    exact absurd ((mem_fresh_iff_first root distinct path p).mp hd) hlater
  · exact ⟨first, q, (mem_fresh_iff_first root distinct first q).mp hd, hid, hr⟩

theorem entries_fresh (distinct : tree.Distinct) :
    ((fresh root).offerAll tree.candidates).2.documents.map entryOf
      = ((fresh root).offerAll tree.candidates).1.filterMap LoadResult.loaded? :=
  (sweeps_fresh root distinct).entries_offerAll

/-- A file is loaded exactly when its document is kept. -/
theorem loaded_fresh_iff (distinct : tree.Distinct) (path : FilePath) (id : String) (rules : Nat) :
    ⟨path, .loaded id rules⟩ ∈ ((fresh root).offerAll tree.candidates).1 ↔
      ∃ d ∈ ((fresh root).offerAll tree.candidates).2.documents, entryOf d = (path, id, rules) := by
  rw [← List.mem_map, entries_fresh root distinct, List.mem_filterMap]
  simp only [LoadResult.loaded?_eq_some_iff, exists_eq_right]

/-- A second call finds every document of the first at its own path, and none with its identifier
anywhere else. -/
theorem offerAll_again (distinct : tree.Distinct) :
    ((fresh root).offerAll tree.candidates).2.offerAll tree.candidates
      = (fresh root).offerAll tree.candidates := by
  have hroot : ((fresh root).offerAll tree.candidates).2.root = root := offerAll_root _ _
  have hkept := consistent_fresh root tree
  have hordered := FileTree.candidates_increasing distinct
  have hiff := offerAll_eq_fresh_iff hkept.increasing (hordered.imp fun hlt => hlt.le)
  rw [hroot] at hiff
  refine hiff.mpr fun d hd => ⟨⟨_, _, (loaded_fresh_iff root distinct _ _ _).mpr ⟨d, hd, rfl⟩⟩, ?_⟩
  intro path rules hr
  obtain ⟨e, he, hentry⟩ := (loaded_fresh_iff root distinct _ _ _).mp hr
  obtain ⟨rfl, hid, -⟩ : e.1 = path ∧ e.2.metadata.id = d.2.metadata.id ∧ e.2.rules.length = rules :=
    by simpa [entryOf] using hentry
  rw [hkept.distinct e he d hd hid]

theorem results_increasing (distinct : tree.Distinct) :
    ((fresh root).offerAll tree.candidates).1.Pairwise fun a b => a.path < b.path :=
  pairwise_path_offerAll _ (FileTree.candidates_increasing distinct)

end

/-- **A first call and the same call again.** There is one result for each file, in order. The
documents kept are those that are reported as loaded, in the same order: of the enabled valid
documents with one identifier the first. Every other one is refused and the message names the
identifier and the path of the first. A disabled document is passed over, whatever its identifier.
The rules kept are as many as the results say. On the same tree a second call gives the same results
and leaves the folder as it is. That no folder repeats a name is so of every tree that is made by
writing and removing (`FileTree.distinct_locate`). -/
theorem loadAll_fresh_first (root : String) (disk : Disk) (tree : FileTree)
    (htree : disk root = .ok tree) (distinct : tree.Distinct) :
    ∃ results next, (fresh root).loadAll disk = .ok (results, next) ∧
      (results.Pairwise fun a b => a.path < b.path) ∧
      next.documents.map entryOf = results.filterMap LoadResult.loaded? ∧
      (∀ path p, (path, p) ∈ next.documents ↔ tree.First path p) ∧
      (∀ path p, tree.First path p →
        ⟨path, .loaded p.metadata.id p.rules.length⟩ ∈ results) ∧
      (∀ path p, tree.Holds path p → ¬ tree.First path p →
        ∃ first q fault, tree.First first q ∧ q.metadata.id = p.metadata.id ∧
          ⟨path, .failed fault⟩ ∈ results ∧
          fault.message = "duplicate policy id '" ++ p.metadata.id ++ "' (already loaded from "
            ++ pathText root first ++ ")") ∧
      (∀ path text p, tree.Scans path (some text) → Policy.parse text = .ok p →
        p.metadata.enabled = false →
          ⟨path, .skipped .disabled⟩ ∈ results ∧ ∀ q, (path, q) ∉ next.documents) ∧
      next.policySet.rules.length = ((results.filterMap LoadResult.loaded?).map fun e => e.2.2).sum ∧
      next.loadAll disk = .ok (results, next) := by
  have hentries := entries_fresh root distinct
  refine ⟨_, _, ((fresh root).loadAll_eq_ok_iff disk _).mpr ⟨tree, htree, rfl⟩,
    results_increasing root distinct, hentries, mem_fresh_iff_first root distinct,
    fun path p hfirst => ?_, fun path p hholds hlater => ?_, fun path text p hscan hparse hoff => ?_,
    ?_, ?_⟩
  · have hkept := (mem_fresh_iff_first root distinct path p).mpr hfirst
    exact (loaded_fresh_iff root distinct _ _ _).mpr ⟨_, hkept, rfl⟩
  · obtain ⟨first, q, hfirst, hid, hr⟩ := exists_first_of_holds root distinct hholds hlater
    exact ⟨first, q, _, hfirst, hid, hr, rfl⟩
  · constructor
    · have hc : Candidate.ofText (some text) = .passed .disabled := by
        rw [Candidate.ofText, parseFile, hparse]
        simp [hoff]
      exact skipped_of_passed _ (hc ▸ hscan.candidate)
    · intro q hq
      have hholds := holds_of_mem_fresh root hq
      obtain ⟨other, hother, hparse'⟩ := hholds.valid
      cases FileTree.text_unique distinct hscan.listed hother
      cases hparse.symm.trans hparse'
      cases hoff.symm.trans hholds.enabled
  · rw [← hentries, List.map_map, policySet, List.length_flatMap]
    rfl
  · have hroot : ((fresh root).offerAll tree.candidates).2.root = root := offerAll_root _ _
    refine (loadAll_eq_ok_iff _ disk _).mpr ⟨tree, ?_, offerAll_again root distinct⟩
    rw [hroot]
    exact htree

/-- Of three files with one identifier the first is disabled and the last is refused. -/
theorem loadAll_fresh_first_disabled :
    let text (more : String) : Option String :=
      some ("apiVersion: v1\nkind: Policy\nmetadata: \x7bid: x" ++ more ++ "\x7d\n")
    let tree : FileTree := .folder [("a.yml", .file (text ", enabled: false")),
      ("b.yml", .file (text "")), ("c.yml", .file (text ""))]
    let disk := FileTree.locate (.folder [("p", tree)])
    disk "p" = .ok tree ∧ tree.Distinct ∧
      ∃ results next, (fresh "p").loadAll disk = .ok (results, next) ∧
        results.map LoadResult.path = [["a.yml"], ["b.yml"], ["c.yml"]] ∧
        next.documents.map entryOf = [(["b.yml"], "x", 0)] ∧
        (results.filterMap fun r => match r.status with
          | .failed fault => some (r.path, fault.message)
          | _ => none) = [(["c.yml"], "duplicate policy id 'x' (already loaded from p/b.yml)")] ∧
        next.loadAll disk = .ok (results, next) := by
  intro text tree disk
  have htree : disk "p" = .ok tree := by
    show (FileTree.folder [("p", tree)]).locate "p" = _
    rfl
  have distinct : tree.Distinct := by
    simp [tree, FileTree.Distinct, FileTree.DistinctIn, Fields.keys]
  have hfiles : tree.files = [(["a.yml"], text ", enabled: false"), (["b.yml"], text ""),
      (["c.yml"], text "")] := by
    rw [FileTree.files, FileTree.filesIn, FileTree.filesIn, FileTree.filesIn, FileTree.filesIn]
  have hvisited : tree.visited = tree.files := by
    refine FileTree.visited_of_ordered distinct ?_
    rw [hfiles]
    decide +kernel
  have hload : (fresh "p").loadAll disk = .ok ((fresh "p").visitAll
      [(["a.yml"], text ", enabled: false"), (["b.yml"], text ""), (["c.yml"], text "")]) := by
    rw [← hfiles, ← hvisited, loadAll_eq]
    show (disk "p").map _ = _
    rw [htree]
    rfl
  obtain ⟨results, next, hfirst, -, -, -, -, -, -, -, hagain⟩ :=
    loadAll_fresh_first "p" disk tree htree distinct
  have hmade : (results.map LoadResult.path, next.documents.map entryOf,
      results.filterMap fun r => match r.status with
        | .failed fault => some (r.path, fault.message)
        | _ => none) = ([["a.yml"], ["b.yml"], ["c.yml"]], [(["b.yml"], "x", 0)],
      [(["c.yml"], "duplicate policy id 'x' (already loaded from p/b.yml)")]) := by
    obtain ⟨rfl, rfl⟩ := Prod.ext_iff.mp (Except.ok.inj (hload.symm.trans hfirst))
    decide +kernel
  simp only [Prod.mk.injEq] at hmade
  obtain ⟨hpaths, hkept, hrefused⟩ := hmade
  exact ⟨htree, distinct, results, next, hfirst, hpaths, hkept, hrefused, hagain⟩

end PolicyFolder

end AccessFilter
