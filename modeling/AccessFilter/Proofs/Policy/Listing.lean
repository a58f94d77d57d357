import AccessFilter.Proofs.Policy.Visit

/-!
# Which files are listed

A search passes over what lies below a folder whose name starts with a dot, and over nothing else.

* `FileTree.StandsAt`         what stands in a tree at a path;
* `FileTree.Shown`            a path below folders whose names start with no dot;
* `FileTree.mem_files_iff`    which files are listed.
-/

namespace AccessFilter

namespace FileTree

/-- What stands in a tree at a path. -/
inductive StandsAt : FileTree → FilePath → FileTree → Prop
  | here (tree : FileTree) : StandsAt tree [] tree
  | step {entries : List (String × FileTree)} {name : String} {next tree : FileTree}
      {path : FilePath} (entry : (name, next) ∈ entries) (rest : StandsAt next path tree) :
      StandsAt (.folder entries) (name :: path) tree

theorem standsAt_file_iff (text text' : Option String) (path : FilePath) :
    StandsAt (.file text) path (.file text') ↔ path = [] ∧ text = text' := by
  constructor
  · rintro ⟨⟩
    exact ⟨rfl, rfl⟩
  · rintro ⟨rfl, rfl⟩
    exact .here _

theorem standsAt_folder_iff (entries : List (String × FileTree)) (path : FilePath)
    (text : Option String) : StandsAt (.folder entries) path (.file text) ↔
      ∃ name next rest, path = name :: rest ∧ (name, next) ∈ entries ∧
        StandsAt next rest (.file text) := by
  constructor
  · rintro (_ | ⟨entry, rest⟩)
    exact ⟨_, _, _, rfl, entry, rest⟩
  · rintro ⟨name, next, rest, rfl, entry, h⟩
    exact .step entry h

/-- The names before the last one start with no dot. -/
def Shown (path : FilePath) : Prop := ∀ name ∈ path.dropLast, isHiddenName name = false

theorem shown_cons {name : String} {path : FilePath} (h : path ≠ []) :
    Shown (name :: path) ↔ isHiddenName name = false ∧ Shown path := by
  rw [Shown, List.dropLast_cons_of_ne_nil h, List.forall_mem_cons]
  rfl

theorem shown_singleton (name : String) : Shown [name] := nofun

mutual

theorem mem_filesIn_iff : (entries : List (String × FileTree)) → (path : FilePath) →
    (text : Option String) → ((path, text) ∈ filesIn entries ↔
      StandsAt (.folder entries) path (.file text) ∧ Shown path)
  | [], path, text => by
    rw [filesIn, standsAt_folder_iff]
    simp
  | (name, tree) :: rest, path, text => by
    have hrest := mem_filesIn_iff rest path text
    have htree := mem_filesOf_iff name tree path text
    rw [filesIn_cons, List.mem_append, hrest, htree, standsAt_folder_iff, standsAt_folder_iff]
    simp only [List.mem_cons, Prod.mk.injEq]
    constructor
    · rintro (⟨⟨below, rfl, h⟩, hshown⟩ | ⟨⟨other, next, below, rfl, hmem, h⟩, hshown⟩)
      · exact ⟨⟨name, tree, below, rfl, .inl ⟨rfl, rfl⟩, h⟩, hshown⟩
      · exact ⟨⟨other, next, below, rfl, .inr hmem, h⟩, hshown⟩
    · rintro ⟨⟨other, next, below, rfl, ⟨rfl, rfl⟩ | hmem, h⟩, hshown⟩
      · exact .inl ⟨⟨below, rfl, h⟩, hshown⟩
      · exact .inr ⟨⟨other, next, below, rfl, hmem, h⟩, hshown⟩

theorem mem_filesOf_iff (name : String) : (tree : FileTree) → (path : FilePath) →
    (text : Option String) → ((path, text) ∈ filesOf name tree ↔
      (∃ below, path = name :: below ∧ StandsAt tree below (.file text)) ∧ Shown path)
  | .file other, path, text => by
    simp only [filesOf, List.mem_singleton, Prod.mk.injEq, standsAt_file_iff]
    constructor
    · rintro ⟨rfl, rfl⟩
      exact ⟨⟨[], rfl, rfl, rfl⟩, shown_singleton name⟩
    · rintro ⟨⟨below, rfl, rfl, rfl⟩, -⟩
      exact ⟨rfl, rfl⟩
  | .folder entries, path, text => by
    have hentries := fun below => mem_filesIn_iff entries below text
    have hne : ∀ below, StandsAt (.folder entries) below (.file text) → below ≠ [] := by
      rintro below h rfl
      cases h
    rw [filesOf]
    split_ifs with hidden
    · refine iff_of_false List.not_mem_nil ?_
      rintro ⟨⟨below, rfl, h⟩, hshown⟩
      rw [shown_cons (hne below h), hidden] at hshown
      cases hshown.1
    · simp only [List.mem_map, Prod.exists, Prod.mk.injEq]
      constructor
      · rintro ⟨below, text', hmem, rfl, rfl⟩
        obtain ⟨h, hshown⟩ := (hentries below).mp hmem
        exact ⟨⟨below, rfl, h⟩, (shown_cons (hne below h)).mpr ⟨Bool.eq_false_iff.mpr hidden, hshown⟩⟩
      · rintro ⟨⟨below, rfl, h⟩, hshown⟩
        exact ⟨below, text, (hentries below).mpr ⟨h, ((shown_cons (hne below h)).mp hshown).2⟩, rfl, rfl⟩

end

/-- The files listed are those below folders whose names start with no dot. -/
theorem mem_files_iff (tree : FileTree) (path : FilePath) (text : Option String) :
    (path, text) ∈ tree.files ↔ tree.StandsAt path (.file text) ∧ Shown path := by
  cases tree with
  | file other =>
    rw [files, List.mem_singleton, Prod.mk.injEq, standsAt_file_iff]
    constructor
    · rintro ⟨rfl, rfl⟩
      exact ⟨⟨rfl, rfl⟩, fun name hname => absurd hname List.not_mem_nil⟩
    · rintro ⟨⟨rfl, rfl⟩, -⟩
      exact ⟨rfl, rfl⟩
  | folder entries => rw [files, mem_filesIn_iff]

theorem mem_visited_iff (tree : FileTree) (path : FilePath) (text : Option String) :
    (path, text) ∈ tree.visited ↔ tree.StandsAt path (.file text) ∧ Shown path := by
  rw [(visited_perm tree).mem_iff, mem_files_iff]

theorem StandsAt.exists_name {entries : List (String × FileTree)} {path : FilePath}
    {text : Option String} (h : (FileTree.folder entries).StandsAt path (.file text)) :
    ∃ above name, path = above ++ [name] := by
  obtain ⟨first, -, below, rfl, -⟩ := (standsAt_folder_iff _ _ _).mp h
  exact (first :: below).eq_nil_or_concat'.resolve_left (List.cons_ne_nil _ _)

end FileTree

end AccessFilter
