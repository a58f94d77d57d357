import AccessFilter.Files.Tree
import Mathlib.Tactic.SplitIfs

/-!
# Folders without repeated names

A folder has at most one entry of a name. Trees are built by writing, making and removing, and no
such change repeats a name; what stands at a path of such a tree repeats none either.

* `FileTree.Distinct`       no folder of the tree has two entries of one name;
* `FileTree.distinct_locate`   so it is of what stands at a path;
* `FileTree.distinct_write`, `distinct_makeFolder`, `distinct_remove`   the changes.
-/

namespace AccessFilter

namespace FileTree

mutual

/-- No folder of the tree has two entries of one name. -/
def Distinct : FileTree → Prop
  | .file _ => True
  | .folder entries => DistinctIn entries

def DistinctIn : List (String × FileTree) → Prop
  | [] => True
  | (name, tree) :: rest => name ∉ Fields.keys rest ∧ Distinct tree ∧ DistinctIn rest

end

/-! ## entries -/

theorem distinctIn_iff (entries : List (String × FileTree)) :
    DistinctIn entries ↔ (Fields.keys entries).Nodup ∧ ∀ e ∈ entries, e.2.Distinct := by
  induction entries with
  | nil => exact ⟨fun _ => ⟨List.nodup_nil, nofun⟩, fun _ => trivial⟩
  | cons e rest ih =>
    obtain ⟨name, tree⟩ := e
    have hkeys : (Fields.keys ((name, tree) :: rest)).Nodup ↔
        name ∉ Fields.keys rest ∧ (Fields.keys rest).Nodup := List.nodup_cons
    rw [DistinctIn, ih, List.forall_mem_cons, hkeys]
    constructor
    · rintro ⟨hname, htree, hnodup, hrest⟩
      exact ⟨⟨hname, hnodup⟩, htree, hrest⟩
    · rintro ⟨⟨hname, hnodup⟩, htree, hrest⟩
      exact ⟨hname, htree, hnodup, hrest⟩

theorem distinctIn_entries {tree : FileTree} (h : tree.Distinct) : DistinctIn tree.entries := by
  cases tree with
  | file text => trivial
  | folder entries => exact h

theorem distinct_of_find? {entries : List (String × FileTree)} (h : DistinctIn entries)
    {name : String} {next : FileTree} (hfind : Fields.find? name entries = some next) :
    next.Distinct := by
  induction entries with
  | nil => cases hfind
  | cons e rest ih =>
    obtain ⟨other, tree⟩ := e
    obtain ⟨-, htree, hrest⟩ := h
    rw [Fields.find?] at hfind
    split_ifs at hfind with hname
    · cases hfind
      exact htree
    · exact ih hrest hfind

theorem distinctIn_put {entries : List (String × FileTree)} (h : DistinctIn entries)
    (name : String) {new : FileTree} (hnew : new.Distinct) :
    DistinctIn (Fields.put name new entries) := by
  induction entries with
  | nil => exact ⟨List.not_mem_nil, hnew, trivial⟩
  | cons e rest ih =>
    obtain ⟨other, tree⟩ := e
    obtain ⟨hother, htree, hrest⟩ := h
    rw [Fields.put]
    split_ifs with hname
    · exact ⟨hother, hnew, hrest⟩
    · refine ⟨fun hmem => ?_, htree, ih hrest⟩
      rcases (Fields.mem_keys_put name other new rest).mp hmem with heq | hmem
      · exact hname heq
      · exact hother hmem

theorem distinctIn_without {entries : List (String × FileTree)} (h : DistinctIn entries)
    (name : String) : DistinctIn (without name entries) := by
  obtain ⟨hnodup, hall⟩ := (distinctIn_iff entries).mp h
  have hsub : (without name entries).Sublist entries := List.filter_sublist
  exact (distinctIn_iff _).mpr ⟨(hsub.map _).nodup hnodup, fun e he => hall e (hsub.mem he)⟩

/-! ## what stands at a path -/

theorem distinct_headD {above : List FileTree} (h : ∀ tree ∈ above, tree.Distinct) :
    (above.headD (.folder [])).Distinct := by
  cases above with
  | nil => trivial
  | cons tree rest => exact h tree List.mem_cons_self

theorem distinct_walk {above : List FileTree} (habove : ∀ tree ∈ above, tree.Distinct)
    {here : FileTree} (hhere : here.Distinct) {parts : List String} {there : FileTree}
    (h : walk above here parts = .ok there) : there.Distinct := by
  induction parts generalizing above here with
  | nil =>
    cases h
    exact hhere
  | cons part parts ih =>
    cases here with
    | file text => cases h
    | folder entries =>
      rw [walk] at h
      split_ifs at h with hdot hup hlong
      · exact ih habove hhere h
      · exact ih (fun tree ht => habove tree (List.mem_of_mem_drop ht)) (distinct_headD habove) h
      · cases hfind : Fields.find? part entries with
        | none =>
          rw [hfind] at h
          cases h
        | some next =>
          rw [hfind] at h
          exact ih (List.forall_mem_cons.mpr ⟨hhere, habove⟩) (distinct_of_find? hhere hfind) h

/-- What stands at a path repeats no name, if the whole tree repeats none. -/
theorem distinct_locate {top : FileTree} (h : top.Distinct) {path : String} {there : FileTree}
    (hthere : top.locate path = .ok there) : there.Distinct := by
  have hnone : ∀ tree ∈ ([] : List FileTree), tree.Distinct := fun tree ht => nomatch ht
  have hstart : (if path.toList.head? == some '/' then FileTree.folder [] else top).Distinct := by
    cases path.toList.head? == some '/' with
    | true => trivial
    | false => exact h
  by_cases hzero : '\x00' ∈ path.toList
  · rw [locate, if_pos hzero] at hthere
    cases hthere
  by_cases hlong : maxPathSize < path.utf8ByteSize
  · rw [locate, if_neg hzero, if_pos hlong] at hthere
    cases hthere
  by_cases hempty : path.isEmpty
  · rw [locate, if_neg hzero, if_neg hlong, if_pos hempty] at hthere
    cases hthere
  rw [locate, if_neg hzero, if_neg hlong, if_neg hempty] at hthere
  exact distinct_walk hnone hstart hthere

/-! ## changes -/

theorem distinct_put {new : FileTree} (hnew : new.Distinct) (names : List String) {tree : FileTree}
    (h : tree.Distinct) : (put new names tree).Distinct := by
  induction names generalizing tree with
  | nil => exact hnew
  | cons name names ih =>
    have hnext : ((Fields.find? name tree.entries).getD (.folder [])).Distinct := by
      cases hfind : Fields.find? name tree.entries with
      | none => trivial
      | some next => exact distinct_of_find? (distinctIn_entries h) hfind
    exact distinctIn_put (distinctIn_entries h) name (ih hnext)

theorem distinct_putFolder (names : List String) {tree : FileTree} (h : tree.Distinct) :
    (putFolder names tree).Distinct := by
  rw [putFolder]
  split
  · exact h
  · have hempty : (FileTree.folder []).Distinct := trivial
    exact distinct_put hempty names h

theorem distinct_changeAt {change : List String → FileTree → FileTree}
    (hchange : ∀ names {tree : FileTree}, tree.Distinct → (change names tree).Distinct)
    {top : FileTree} (h : top.Distinct) (path : String) :
    (changeAt change top path).Distinct := by
  have hleft : ∀ left : List (List String),
      (left.foldl (fun tree names => putFolder names tree) top).Distinct := by
    intro left
    exact List.foldlRecOn left _ h fun _ htree names _ => distinct_putFolder names htree
  exact hchange _ (hleft _)

theorem distinct_write {top : FileTree} (h : top.Distinct) (path : String) {file : FileTree}
    (hfile : file.Distinct) : (top.write path file).Distinct :=
  distinct_changeAt (distinct_put hfile) h path

theorem distinct_makeFolder {top : FileTree} (h : top.Distinct) (path : String) :
    (top.makeFolder path).Distinct :=
  distinct_changeAt distinct_putFolder h path

theorem distinct_removeAt (names : List String) {tree : FileTree} (h : tree.Distinct) :
    (removeAt names tree).Distinct := by
  induction names, tree using removeAt.induct with
  | case1 tree => exact h
  | case2 name tree => exact distinctIn_without (distinctIn_entries h) name
  | case3 name names tree hnames next hfind ih =>
    have hnext : next.Distinct := distinct_of_find? (distinctIn_entries h) hfind
    rw [removeAt, hfind]
    · exact distinctIn_put (distinctIn_entries h) name (ih hnext)
    · exact hnames
  | case4 name names tree hnames hfind =>
    rw [removeAt, hfind]
    · exact h
    · exact hnames

theorem distinct_remove {top : FileTree} (h : top.Distinct) (path : String) :
    (top.remove path).Distinct :=
  distinct_removeAt _ h

end FileTree

end AccessFilter
