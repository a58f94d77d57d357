import AccessFilter.Proofs.Files.Distinct
import AccessFilter.Proofs.Policy.Kept
import AccessFilter.Proofs.Traversal

/-!
# A search as a visit of files

A search level by level comes upon the files of a tree one after the other, so it is a visit of a list
of files; one that breaks off is a visit of the files before. Where no folder repeats a name the list
is in the order of the whole paths, each path once.

* `FileTree.files`            the files below folders whose names start with no dot;
* `FileTree.visited`          these files as a search comes upon them;
* `FileTree.inOrder_visited`  they are in the order of their paths;
* `PolicyFolder.visitAll`     files visited one after the other;
* `PolicyFolder.search`       a search to which no folder is barred;
* `PolicyFolder.scan_cases`   what a search does, broken off or not;
* `PolicyFolder.loadAll_eq`   what a load does.
-/

namespace AccessFilter

namespace FileTree

/-! ## the files of a tree -/

mutual

/-- The files in a folder and in the folders of it whose names start with no dot. -/
def files : FileTree → List (FilePath × Option String)
  | .file text => [([], text)]
  | .folder entries => filesIn entries

def filesIn : List (String × FileTree) → List (FilePath × Option String)
  | [] => []
  | (name, .file text) :: rest => ([name], text) :: filesIn rest
  | (name, .folder entries) :: rest =>
    (if isHiddenName name then [] else (filesIn entries).map fun f => (name :: f.1, f.2))
      ++ filesIn rest

end

def filesOf (name : String) : FileTree → List (FilePath × Option String)
  | .file text => [([name], text)]
  | .folder entries =>
    if isHiddenName name then [] else (filesIn entries).map fun f => (name :: f.1, f.2)

theorem filesIn_cons (name : String) (tree : FileTree) (rest : List (String × FileTree)) :
    filesIn ((name, tree) :: rest) = filesOf name tree ++ filesIn rest := by
  cases tree with
  | file text =>
    rw [filesIn]
    rfl
  | folder entries => rw [filesIn, filesOf]

theorem filesIn_eq_flatMap (entries : List (String × FileTree)) :
    filesIn entries = entries.flatMap fun e => filesOf e.1 e.2 := by
  induction entries with
  | nil => rw [filesIn, List.flatMap_nil]
  | cons e rest ih => rw [filesIn_cons, List.flatMap_cons, ih]

theorem fst_of_mem_filesOf {name : String} {tree : FileTree} {f : FilePath × Option String}
    (h : f ∈ filesOf name tree) : ∃ below, f.1 = name :: below := by
  cases tree with
  | file text =>
    cases List.mem_singleton.mp h
    exact ⟨[], rfl⟩
  | folder entries =>
    rw [filesOf] at h
    split_ifs at h with hidden
    · cases h
    · obtain ⟨g, -, rfl⟩ := List.mem_map.mp h
      exact ⟨g.1, rfl⟩

theorem fst_of_mem_filesIn {entries : List (String × FileTree)} {f : FilePath × Option String}
    (h : f ∈ filesIn entries) : ∃ name below, f.1 = name :: below := by
  rw [filesIn_eq_flatMap] at h
  obtain ⟨e, -, hf⟩ := List.mem_flatMap.mp h
  exact ⟨e.1, fst_of_mem_filesOf hf⟩

/-! ## in the order of names -/

theorem filesIn_perm {a b : List (String × FileTree)} (h : a.Perm b) :
    (filesIn a).Perm (filesIn b) := by
  rw [filesIn_eq_flatMap, filesIn_eq_flatMap]
  exact h.flatMap_right _

mutual

theorem files_sorted_perm : (tree : FileTree) → tree.sorted.files.Perm tree.files
  | .file text => by rw [sorted]
  | .folder entries => by
    rw [sorted, files, files]
    exact (filesIn_perm (List.mergeSort_perm _ _)).trans (filesIn_sortedIn_perm entries)

theorem filesIn_sortedIn_perm : (entries : List (String × FileTree)) →
    (filesIn (sortedIn entries)).Perm (filesIn entries)
  | [] => by rw [sortedIn]
  | (name, tree) :: rest => by
    rw [sortedIn, filesIn_cons, filesIn_cons]
    refine List.Perm.append ?_ (filesIn_sortedIn_perm rest)
    cases tree with
    | file text => rw [sorted]
    | folder entries =>
      have h := files_sorted_perm (.folder entries)
      rw [sorted, files, files] at h
      rw [sorted, filesOf, filesOf]
      split_ifs with hidden
      · exact List.Perm.refl _
      · exact h.map _

end

theorem keys_sortedIn (entries : List (String × FileTree)) :
    Fields.keys (sortedIn entries) = Fields.keys entries := by
  induction entries with
  | nil => rw [sortedIn]
  | cons e rest ih =>
    rw [sortedIn]
    exact congrArg (e.1 :: ·) ih

/-- The paths of files increase strictly. -/
abbrev InOrder (files : List (FilePath × Option String)) : Prop := files.Pairwise fun a b => a.1 < b.1

theorem inOrder_filesIn {entries : List (String × FileTree)}
    (names : entries.Pairwise fun a b => a.1 < b.1)
    (each : ∀ e ∈ entries, InOrder (filesOf e.1 e.2)) : InOrder (filesIn entries) := by
  rw [filesIn_eq_flatMap]
  refine List.pairwise_flatMap.mpr ⟨each, names.imp fun hlt f hf g hg => ?_⟩
  obtain ⟨below, hbelow⟩ := fst_of_mem_filesOf hf
  obtain ⟨below', hbelow'⟩ := fst_of_mem_filesOf hg
  rw [hbelow, hbelow']
  exact List.Lex.rel hlt

/-- Where no name is repeated, sorting brings them in strict order. -/
theorem pairwise_mergeSort_byName {entries : List (String × FileTree)}
    (h : (Fields.keys entries).Nodup) :
    (entries.mergeSort byName).Pairwise fun a b => a.1 < b.1 := by
  have hle : (entries.mergeSort byName).Pairwise fun a b => byName a b := by
    refine List.pairwise_mergeSort (fun a b c hab hbc => ?_) (fun a b => ?_) _
    · rw [byName, Bool.not_eq_true', decide_eq_false_iff_not, not_lt] at *
      exact hab.trans hbc
    · rw [byName, byName, Bool.or_eq_true, Bool.not_eq_true', Bool.not_eq_true',
        decide_eq_false_iff_not, decide_eq_false_iff_not, not_lt, not_lt]
      exact le_total _ _
  have hne : (entries.mergeSort byName).Pairwise fun a b => a.1 ≠ b.1 :=
    List.pairwise_map.mp (((List.mergeSort_perm entries byName).map Prod.fst).nodup_iff.mpr h)
  refine hle.imp₂ (fun a b hab hne => ?_) hne
  rw [byName, Bool.not_eq_true', decide_eq_false_iff_not, not_lt] at hab
  exact lt_of_le_of_ne hab hne

mutual

theorem inOrder_sorted : (tree : FileTree) → tree.Distinct → InOrder tree.sorted.files
  | .file text, _ => by
    rw [sorted, files]
    exact List.pairwise_singleton _ _
  | .folder entries, h => by
    rw [sorted, files]
    have hnames := ((distinctIn_iff entries).mp h).1
    refine inOrder_filesIn (pairwise_mergeSort_byName (keys_sortedIn entries ▸ hnames)) fun e he => ?_
    exact inOrder_sortedIn entries h e (List.mem_mergeSort.mp he)

theorem inOrder_sortedIn : (entries : List (String × FileTree)) → DistinctIn entries →
    ∀ e ∈ sortedIn entries, InOrder (filesOf e.1 e.2)
  | [], _ => by
    rw [sortedIn]
    exact nofun
  | (name, tree) :: rest, ⟨_, htree, hrest⟩ => by
    rw [sortedIn, List.forall_mem_cons]
    refine ⟨?_, inOrder_sortedIn rest hrest⟩
    cases tree with
    | file text =>
      rw [sorted]
      exact List.pairwise_singleton _ _
    | folder entries =>
      have h := inOrder_sorted (.folder entries) htree
      rw [sorted, files] at h
      rw [sorted, filesOf]
      split_ifs with hidden
      · exact List.Pairwise.nil
      · exact List.pairwise_map.mpr (h.imp fun hlt => List.Lex.cons hlt)

end

/-! ## the order of a search -/

/-- The files as a search in the order of the names comes upon them. -/
def visited (tree : FileTree) : List (FilePath × Option String) := tree.sorted.files

theorem visited_perm (tree : FileTree) : tree.visited.Perm tree.files := files_sorted_perm tree

/-- **Searched level by level, the files come in the order of their whole paths.** -/
theorem inOrder_visited {tree : FileTree} (h : tree.Distinct) : InOrder tree.visited :=
  inOrder_sorted tree h

theorem nodup_files {tree : FileTree} (h : tree.Distinct) : (tree.files.map Prod.fst).Nodup := by
  refine ((visited_perm tree).map Prod.fst).nodup_iff.mp (List.pairwise_map.mpr ?_)
  exact (inOrder_visited h).imp fun hlt => hlt.ne

/-- Files that are listed in order are visited as they are listed. -/
theorem visited_of_ordered {tree : FileTree} (h : tree.Distinct)
    (ordered : tree.files.Pairwise fun a b => ¬ b.1 < a.1) : tree.visited = tree.files := by
  have hne := List.pairwise_map.mp (nodup_files h)
  have hfiles : InOrder tree.files :=
    ordered.imp₂ (fun a b hle hne => lt_of_le_of_ne (not_lt.mp hle) hne) hne
  exact (visited_perm tree).eq_of_pairwise (fun a b _ _ hab hba => absurd hba hab.asymm)
    (inOrder_visited h) hfiles

theorem visited_eq {tree : FileTree} (h : tree.Distinct) {files : List (FilePath × Option String)}
    (listed : tree.files = files) (ordered : (files.map Prod.fst).Pairwise fun a b => ¬ b < a) :
    tree.visited = files := by
  rw [← listed]
  exact visited_of_ordered h (List.pairwise_map.mp (listed ▸ ordered))

end FileTree

namespace PolicyFolder

/-! ## a visit of files -/

def visitAll (folder : PolicyFolder) :
    List (FilePath × Option String) → List LoadResult × PolicyFolder
  | [] => ([], folder)
  | (path, text) :: rest =>
    let (status, folder) := folder.visit path text
    let (results, folder) := visitAll folder rest
    (⟨path, status⟩ :: results, folder)

theorem visitAll_cons (folder : PolicyFolder) (f : FilePath × Option String)
    (rest : List (FilePath × Option String)) : folder.visitAll (f :: rest)
      = (⟨f.1, (folder.visit f.1 f.2).1⟩ :: ((folder.visit f.1 f.2).2.visitAll rest).1,
        ((folder.visit f.1 f.2).2.visitAll rest).2) := rfl

theorem visitAll_append (folder : PolicyFolder) (a b : List (FilePath × Option String)) :
    folder.visitAll (a ++ b) = ((folder.visitAll a).1 ++ ((folder.visitAll a).2.visitAll b).1,
      ((folder.visitAll a).2.visitAll b).2) := by
  induction a generalizing folder with
  | nil => rfl
  | cons f rest ih => rw [List.cons_append, visitAll_cons, ih, visitAll_cons, List.cons_append]

/-- Load the root file, whatever its name, or visit the files of the root folder. -/
def loadTree (folder : PolicyFolder) : FileTree → List LoadResult × PolicyFolder
  | .file text =>
    let (status, folder) := folder.load [] text
    ([⟨[], status⟩], folder)
  | tree => folder.visitAll tree.visited

/-! ## a search -/

def below (above : FilePath) (files : List (FilePath × Option String)) :
    List (FilePath × Option String) :=
  files.map fun f => (above ++ f.1, f.2)

theorem below_nil (files : List (FilePath × Option String)) : below [] files = files :=
  List.map_id files

theorem below_cons (above : FilePath) (name : String) (files : List (FilePath × Option String)) :
    below above (files.map fun f => (name :: f.1, f.2)) = below (above ++ [name]) files := by
  rw [below, below, List.map_map]
  refine List.map_congr_left fun f _ => ?_
  rw [Function.comp_apply, List.append_cons]

/-- The files of the entry of a folder, and those behind it. -/
theorem below_filesIn_folder (above : FilePath) (name : String) (entries rest) :
    below above (FileTree.filesIn ((name, .folder entries) :: rest))
      = (if isHiddenName name then [] else below (above ++ [name]) (FileTree.filesIn entries))
        ++ below above (FileTree.filesIn rest) := by
  rw [FileTree.filesIn, below, List.map_append]
  cases isHiddenName name with
  | true => rfl
  | false => exact congrArg (· ++ _) (below_cons above name _)

/-- Search entries as they are given, the files of a folder before the entry behind it. -/
def search (folder : PolicyFolder) (above : FilePath) :
    List (String × FileTree) → List LoadResult × PolicyFolder
  | [] => ([], folder)
  | (name, .file text) :: rest =>
    let first := folder.visit (above ++ [name]) text
    let later := search first.2 above rest
    (⟨above ++ [name], first.1⟩ :: later.1, later.2)
  | (name, .folder entries) :: rest =>
    let first := if isHiddenName name then ([], folder) else search folder (above ++ [name]) entries
    let later := search first.2 above rest
    (first.1 ++ later.1, later.2)

theorem search_eq_visitAll : (entries : List (String × FileTree)) → (folder : PolicyFolder) →
    (above : FilePath) →
      folder.search above entries = folder.visitAll (below above (FileTree.filesIn entries))
  | [], folder, above => by
    rw [search, FileTree.filesIn]
    rfl
  | (name, .file text) :: rest, folder, above => by
    rw [search, search_eq_visitAll rest, FileTree.filesIn]
    rfl
  | (name, .folder entries) :: rest, folder, above => by
    rw [search, below_filesIn_folder, visitAll_append]
    cases isHiddenName name with
    | true =>
      rw [search_eq_visitAll rest]
      rfl
    | false =>
      rw [if_neg Bool.false_ne_true, if_neg Bool.false_ne_true, search_eq_visitAll entries,
        search_eq_visitAll rest]

theorem scan_file (barred : FilePath → Option FileError) (folder : PolicyFolder) (above : FilePath)
    (name : String) (text : Option String) (rest : List (String × FileTree)) :
    folder.scan barred above ((name, .file text) :: rest)
      = ((⟨above ++ [name], (folder.visit (above ++ [name]) text).1⟩
            :: (scan barred (folder.visit (above ++ [name]) text).2 above rest).1.1,
          (scan barred (folder.visit (above ++ [name]) text).2 above rest).1.2),
        (scan barred (folder.visit (above ++ [name]) text).2 above rest).2) := by
  rw [scan]

/-- Where no folder is barred, a scan is a search and does not break off. -/
theorem scan_eq_search : (entries : List (String × FileTree)) → (folder : PolicyFolder) →
    (above : FilePath) → folder.scan (fun _ => none) above entries
      = (((folder.search above entries).1, none), (folder.search above entries).2)
  | [], folder, above => by rw [scan, search]
  | (name, .file text) :: rest, folder, above => by rw [scan_file, search, scan_eq_search rest]
  | (name, .folder entries) :: rest, folder, above => by
    rw [scan, search]
    cases isHiddenName name with
    | true => rw [if_pos rfl, if_pos rfl, scan_eq_search rest, List.nil_append]
    | false =>
      rw [if_neg Bool.false_ne_true, if_neg Bool.false_ne_true, scan_eq_search entries]
      simp only [scan_eq_search rest]

/-- **A scan is a visit of the files it comes upon**: of all of them, or of the first ones when it
breaks off. -/
theorem scan_cases (barred : FilePath → Option FileError) : (entries : List (String × FileTree)) →
    (folder : PolicyFolder) → (above : FilePath) → ∃ fs broken,
      folder.scan barred above entries
        = (((folder.visitAll fs).1, broken), (folder.visitAll fs).2) ∧
      fs <+: below above (FileTree.filesIn entries) ∧
      (broken = none → fs = below above (FileTree.filesIn entries))
  | [], folder, above => by
    rw [scan, FileTree.filesIn]
    exact ⟨[], none, rfl, List.nil_prefix, fun _ => rfl⟩
  | (name, .file text) :: rest, folder, above => by
    obtain ⟨fs, broken, hscan, hprefix, hall⟩ :=
      scan_cases barred rest (folder.visit (above ++ [name]) text).2 above
    have hfiles : below above (FileTree.filesIn ((name, .file text) :: rest))
        = (above ++ [name], text) :: below above (FileTree.filesIn rest) := by
      rw [FileTree.filesIn]
      rfl
    rw [hfiles, scan_file, hscan]
    exact ⟨(above ++ [name], text) :: fs, broken, rfl, List.cons_prefix_cons.mpr ⟨rfl, hprefix⟩,
      fun h => by rw [hall h]⟩
  | (name, .folder entries) :: rest, folder, above => by
    rw [below_filesIn_folder, scan]
    cases isHiddenName name with
    | true =>
      rw [if_pos rfl, if_pos rfl]
      exact scan_cases barred rest folder above
    | false =>
      rw [if_neg Bool.false_ne_true, if_neg Bool.false_ne_true]
      cases barred (above ++ [name]) with
      | some e =>
        exact ⟨[], some e, rfl, List.nil_prefix, fun h => absurd h (Option.some_ne_none e)⟩
      | none =>
        obtain ⟨fs, broken, hscan, hprefix, hall⟩ :=
          scan_cases barred entries folder (above ++ [name])
        rw [hscan]
        cases broken with
        | some e =>
          exact ⟨fs, some e, rfl, hprefix.trans (List.prefix_append _ _),
            fun h => absurd h (Option.some_ne_none e)⟩
        | none =>
          obtain ⟨gs, broken, hscan', hprefix', hall'⟩ :=
            scan_cases barred rest (folder.visitAll fs).2 above
          refine ⟨fs ++ gs, broken, ?_, ?_, fun h => ?_⟩
          · rw [visitAll_append]
            simp only [hscan']
          · rw [← hall rfl]
            exact (List.prefix_append_right_inj _).mpr hprefix'
          · rw [hall rfl, hall' h]

/-! ## a load -/

/-- A load of a folder is a search in the order of the names. -/
theorem loadTree_eq_search (folder : PolicyFolder) (entries : List (String × FileTree)) :
    folder.loadTree (.folder entries)
      = folder.search [] (FileTree.folder entries).sorted.entries := by
  rw [search_eq_visitAll, below_nil]
  rfl

theorem perform_of_listed (folder : PolicyFolder) (disk : Disk) {tree : FileTree}
    (h : disk folder.root = .ok tree) : folder.perform { disk }
      = .ofResults (folder.loadTree tree).1 none (folder.loadTree tree).2 := by
  cases tree with
  | file text =>
    simp only [perform, h]
    rfl
  | folder entries =>
    simp only [perform, h, scan_eq_search]
    rw [loadTree_eq_search]

/-- **A load is the visit of what stands at the root.** -/
theorem loadAll_eq (folder : PolicyFolder) (disk : Disk) :
    folder.loadAll disk = (disk folder.root).map folder.loadTree := by
  rw [loadAll]
  cases h : disk folder.root with
  | error e =>
    simp only [perform, h]
    rfl
  | ok tree =>
    rw [folder.perform_of_listed disk h]
    rfl

end PolicyFolder

end AccessFilter
