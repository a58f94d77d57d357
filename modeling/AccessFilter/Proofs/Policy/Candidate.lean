import AccessFilter.Proofs.Policy.Visit

/-!
# Loading as a fold over candidates

What becomes of a file depends on the documents kept only when the file holds a document in force;
then it matters whether another path has its identifier.

* `Candidate`             a file by itself: passed over, faulty, or a document in force;
* `FileTree.candidates`   the candidates of a tree, as a search comes upon them;
* `PolicyFolder.offer`, `offerAll`   a candidate, or several, against the documents kept;
* `PolicyFolder.loadTree_eq_offerAll`   to load a tree is to offer its candidates;
* `FileTree.candidates_increasing`   their paths increase strictly.
-/

namespace AccessFilter

/-- A file by itself. -/
inductive Candidate where
  | passed (reason : SkipReason)
  | faulty (cause : PolicyError)
  | document (p : Policy)

namespace Candidate

def ofText (text : Option String) : Candidate :=
  match PolicyFolder.parseFile text with
  | .error e => .faulty e
  | .ok p => if p.metadata.enabled then .document p else .passed .disabled

def ofFile (path : FilePath) (text : Option String) : Candidate :=
  if isHiddenName (path.getLast?.getD "") then .passed .hidden
  else if !isYamlName (path.getLast?.getD "") then .passed .notYaml
  else ofText text

theorem ofFile_hidden {path : FilePath} {text : Option String}
    (hidden : isHiddenName (path.getLast?.getD "") = true) : ofFile path text = .passed .hidden :=
  if_pos hidden

theorem ofFile_other {path : FilePath} {text : Option String}
    (hidden : isHiddenName (path.getLast?.getD "") = false)
    (yaml : isYamlName (path.getLast?.getD "") = false) : ofFile path text = .passed .notYaml := by
  rw [ofFile, hidden, yaml]
  rfl

theorem ofFile_yaml {path : FilePath} {text : Option String}
    (hidden : isHiddenName (path.getLast?.getD "") = false)
    (yaml : isYamlName (path.getLast?.getD "") = true) : ofFile path text = ofText text := by
  rw [ofFile, hidden, yaml]
  rfl

end Candidate

/-- The candidates of a tree. The root file is one whatever its name. -/
def FileTree.candidates : FileTree → List (FilePath × Candidate)
  | .file text => [([], .ofText text)]
  | .folder entries =>
    (FileTree.folder entries).visited.map fun f => (f.1, .ofFile f.1 f.2)

namespace PolicyFolder

/-- Judge a candidate, and keep its document if its identifier is free. -/
def offer (folder : PolicyFolder) (path : FilePath) : Candidate → LoadStatus × PolicyFolder
  | .passed reason => (.skipped reason, folder)
  | .faulty cause => (.failed (.faulty cause), folder)
  | .document p =>
    match folder.documents.find? (isTakenBy path p.metadata.id) with
    | some d => (.failed (.duplicate p.metadata.id (pathText folder.root d.1)), folder)
    | none =>
      (.loaded p.metadata.id p.rules.length,
        { folder with documents := keepDocument path p folder.documents })

/-- Judge candidates one after the other. -/
def offerAll (folder : PolicyFolder) :
    List (FilePath × Candidate) → List LoadResult × PolicyFolder
  | [] => ([], folder)
  | c :: rest =>
    (⟨c.1, (folder.offer c.1 c.2).1⟩ :: ((folder.offer c.1 c.2).2.offerAll rest).1,
      ((folder.offer c.1 c.2).2.offerAll rest).2)

/-! ## loading is offering -/

theorem load_eq_offer (folder : PolicyFolder) (path : FilePath) (text : Option String) :
    folder.load path text = folder.offer path (.ofText text) := by
  rw [load, Candidate.ofText]
  cases parseFile text with
  | error e => rfl
  | ok p =>
    show folder.keep path p = folder.offer path (if p.metadata.enabled then _ else _)
    rw [keep]
    cases p.metadata.enabled <;> rfl

theorem visit_eq_offer (folder : PolicyFolder) (path : FilePath) (text : Option String) :
    folder.visit path text = folder.offer path (.ofFile path text) := by
  rw [visit, Candidate.ofFile]
  by_cases hh : isHiddenName (path.getLast?.getD "") = true
  · rw [if_pos hh, if_pos hh]
    rfl
  · rw [if_neg hh, if_neg hh]
    by_cases hy : (!isYamlName (path.getLast?.getD "")) = true
    · rw [if_pos hy, if_pos hy]
      rfl
    · rw [if_neg hy, if_neg hy]
      exact load_eq_offer folder path text

theorem visitAll_eq_offerAll (folder : PolicyFolder) (files : List (FilePath × Option String)) :
    folder.visitAll files = folder.offerAll (files.map fun f => (f.1, .ofFile f.1 f.2)) := by
  induction files generalizing folder with
  | nil => rfl
  | cons f rest ih =>
    rw [visitAll, List.map_cons, offerAll, ← ih, ← visit_eq_offer]

/-- **To load a tree is to offer its candidates.** -/
theorem loadTree_eq_offerAll (folder : PolicyFolder) (tree : FileTree) :
    folder.loadTree tree = folder.offerAll tree.candidates := by
  cases tree with
  | file text =>
    rw [loadTree, load_eq_offer]
    rfl
  | folder entries => exact visitAll_eq_offerAll folder _

end PolicyFolder

namespace FileTree

theorem candidates_empty : (FileTree.folder []).candidates = [] := by
  have hdistinct : (FileTree.folder []).Distinct := trivial
  rw [candidates, visited_eq hdistinct (by rw [files, filesIn]) List.Pairwise.nil]
  rfl

theorem candidates_single (name : String) (text : Option String) :
    (FileTree.folder [(name, .file text)]).candidates = [([name], .ofFile [name] text)] := by
  have hdistinct : (FileTree.folder [(name, .file text)]).Distinct :=
    ⟨List.not_mem_nil, trivial, trivial⟩
  rw [candidates, visited_eq hdistinct (by rw [files, filesIn, filesIn]) (List.pairwise_singleton _ _)]
  rfl

/-- Where no folder repeats a name, the candidates come in the order of their paths. -/
theorem candidates_increasing {tree : FileTree} (h : tree.Distinct) :
    tree.candidates.Pairwise fun a b => a.1 < b.1 := by
  cases tree with
  | file text => exact List.pairwise_singleton _ _
  | folder entries =>
    rw [candidates, List.pairwise_map]
    exact inOrder_visited h

end FileTree

namespace PolicyFolder

/-! ## one candidate -/

theorem isTakenBy_iff (path : FilePath) (id : String) (d : FilePath × Policy) :
    isTakenBy path id d = true ↔ d.1 ≠ path ∧ d.2.metadata.id = id := by
  rw [isTakenBy, Bool.and_eq_true, decide_eq_true_iff, beq_iff_eq]

/-- A candidate leaves the documents as they are, or it is a document whose identifier is free and
is loaded. -/
theorem offer_cases (folder : PolicyFolder) (path : FilePath) (c : Candidate) :
    ((folder.offer path c).2 = folder ∧ ∀ id rules, (folder.offer path c).1 ≠ .loaded id rules) ∨
      ∃ p, c = .document p ∧
        (∀ d ∈ folder.documents, d.2.metadata.id = p.metadata.id → d.1 = path) ∧
        folder.offer path c = (.loaded p.metadata.id p.rules.length,
          { folder with documents := keepDocument path p folder.documents }) := by
  cases c with
  | passed reason => exact Or.inl ⟨rfl, fun _ _ => LoadStatus.noConfusion⟩
  | faulty cause => exact Or.inl ⟨rfl, fun _ _ => LoadStatus.noConfusion⟩
  | document p =>
    rw [offer]
    cases ht : folder.documents.find? (isTakenBy path p.metadata.id) with
    | some d => exact Or.inl ⟨rfl, fun _ _ => LoadStatus.noConfusion⟩
    | none =>
      refine Or.inr ⟨p, rfl, fun d hd hid => ?_, rfl⟩
      by_contra hp
      exact List.find?_eq_none.mp ht d hd ((isTakenBy_iff path _ d).mpr ⟨hp, hid⟩)

theorem offer_root (folder : PolicyFolder) (path : FilePath) (c : Candidate) :
    (folder.offer path c).2.root = folder.root := by
  rcases folder.offer_cases path c with ⟨h, -⟩ | ⟨p, -, -, h⟩ <;> rw [h]

theorem offer_increasing {folder : PolicyFolder} (h : Increasing folder.documents)
    (path : FilePath) (c : Candidate) : Increasing (folder.offer path c).2.documents := by
  rcases folder.offer_cases path c with ⟨hc, -⟩ | ⟨p, -, -, hc⟩ <;> rw [hc]
  · exact h
  · exact keepDocument_increasing path p h

/-! ## several candidates -/

theorem offerAll_root (folder : PolicyFolder) (cs : List (FilePath × Candidate)) :
    (folder.offerAll cs).2.root = folder.root := by
  induction cs generalizing folder with
  | nil => rfl
  | cons c rest ih => exact (ih _).trans (folder.offer_root c.1 c.2)

theorem offerAll_increasing {folder : PolicyFolder} (h : Increasing folder.documents)
    (cs : List (FilePath × Candidate)) : Increasing (folder.offerAll cs).2.documents := by
  induction cs generalizing folder with
  | nil => exact h
  | cons c rest ih => exact ih (offer_increasing h c.1 c.2)

theorem map_path_offerAll (folder : PolicyFolder) (cs : List (FilePath × Candidate)) :
    (folder.offerAll cs).1.map LoadResult.path = cs.map Prod.fst := by
  induction cs generalizing folder with
  | nil => rfl
  | cons c rest ih => rw [offerAll, List.map_cons, List.map_cons, ih]

theorem pairwise_path_offerAll (folder : PolicyFolder) {cs : List (FilePath × Candidate)}
    (h : cs.Pairwise fun a b => a.1 < b.1) :
    (folder.offerAll cs).1.Pairwise fun a b => a.path < b.path := by
  have hpaths := List.pairwise_map.mpr h
  rw [← map_path_offerAll folder cs] at hpaths
  exact List.pairwise_map.mp hpaths

theorem exists_candidate_of_mem_offerAll {folder : PolicyFolder}
    {cs : List (FilePath × Candidate)} {r : LoadResult} (h : r ∈ (folder.offerAll cs).1) :
    ∃ c ∈ cs, c.1 = r.path := by
  have hp := List.mem_map_of_mem (f := LoadResult.path) h
  rw [map_path_offerAll] at hp
  exact List.mem_map.mp hp

end PolicyFolder

end AccessFilter
