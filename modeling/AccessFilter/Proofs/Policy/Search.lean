import AccessFilter.Proofs.Policy.Listing
import AccessFilter.Proofs.Policy.Reload
import Mathlib.Data.List.TakeWhile

/-!
# What a load says of each file

A load gives one result for each file that is listed, in the order of the paths. By its name a file
is passed over or read, and what becomes of one that is read depends on its text and, through its
identifier, on the documents kept. A file that fails changes nothing for the others.

* `isYamlName_iff`            the names of YAML files;
* `PolicyFolder.Outcome`      what may become of a file that is read;
* `outcome_offerAll`          what becomes of it;
* `visitAll_without_failed`   the files that did not fail, by themselves;
* `PolicyFolder.loadAll_lists`   all of this for a load.
-/

namespace AccessFilter

/-! ## names -/

theorem extension?_eq_some_iff (name ext : String) : extension? name = some ext ↔
    ∃ stem : String, stem ≠ "" ∧ '.' ∉ ext.toList ∧ name = stem ++ "." ++ ext := by
  constructor
  · intro h
    rw [extension?] at h
    split_ifs at h with hlength
    have hcut := List.takeWhile_append_dropWhile (p := fun c => decide (c ≠ '.'))
      (l := name.toList.reverse)
    have hhead := List.head?_dropWhile_not (fun c => decide (c ≠ '.')) name.toList.reverse
    have hall := fun c => List.mem_takeWhile_imp (p := fun c => decide (c ≠ '.'))
      (l := name.toList.reverse) (x := c)
    generalize name.toList.reverse.takeWhile (fun c => decide (c ≠ '.')) = after at *
    generalize name.toList.reverse.dropWhile (fun c => decide (c ≠ '.')) = rest at *
    have hname : name.toList = rest.reverse ++ after.reverse := by
      rw [← List.reverse_append, hcut, List.reverse_reverse]
    rw [← String.length_toList, hname, List.length_append, List.length_reverse,
      List.length_reverse] at hlength
    obtain ⟨c, d, rest, rfl⟩ : ∃ c d rest', rest = c :: d :: rest' := by
      match rest, hlength with
      | [], h => exact absurd h (by simp)
      | [c], h => exact absurd h (by simp +arith)
      | c :: d :: rest, _ => exact ⟨c, d, rest, rfl⟩
    obtain rfl : c = '.' := by simpa using hhead
    refine ⟨String.ofList (d :: rest).reverse, by simp, fun hdot => ?_, ?_⟩
    · rw [← Option.some.inj h, String.toList_ofList] at hdot
      simpa using hall '.' (List.mem_reverse.mp hdot)
    · rw [← Option.some.inj h]
      apply String.toList_inj.mp
      simp [hname]
  · rintro ⟨stem, hstem, hext, rfl⟩
    have hreverse : (stem ++ "." ++ ext).toList.reverse
        = ext.toList.reverse ++ '.' :: stem.toList.reverse := by simp
    have hlast : (ext.toList.reverse ++ '.' :: stem.toList.reverse).takeWhile (· ≠ '.')
        = ext.toList.reverse := by
      rw [List.takeWhile_append_of_pos, List.takeWhile_cons_of_neg, List.append_nil]
      · simp
      · intro c hc
        exact decide_eq_true fun heq => hext (heq ▸ List.mem_reverse.mp hc)
    have hlength : ext.toList.length + 1 < (stem ++ "." ++ ext).length := by
      have hpos : stem.length ≠ 0 := by simpa using hstem
      have hdot : ".".length = 1 := rfl
      rw [String.length_append, String.length_append, String.length_toList]
      omega
    rw [extension?, hreverse, hlast, List.reverse_reverse, if_pos hlength, String.ofList_toList]

/-- A name of which the part before the ending is not empty. -/
def NamesYaml (name : String) : Prop :=
  ∃ stem : String, stem ≠ "" ∧ (name = stem ++ ".yml" ∨ name = stem ++ ".yaml")

theorem isYamlName_iff (name : String) : isYamlName name = true ↔ NamesYaml name := by
  have hends : ∀ ext ending : String, '.' ∉ ext.toList → "." ++ ext = ending →
      (extension? name = some ext ↔ ∃ stem : String, stem ≠ "" ∧ name = stem ++ ending) := by
    rintro ext ending hdot rfl
    simp only [extension?_eq_some_iff, String.append_assoc]
    exact exists_congr fun stem => and_congr_right fun _ => and_iff_right hdot
  rw [isYamlName, Bool.or_eq_true, beq_iff_eq, beq_iff_eq, hends "yml" ".yml" (by decide) rfl,
    hends "yaml" ".yaml" (by decide) rfl, ← exists_or]
  exact exists_congr fun stem => and_or_left.symm

def LoadResult.failed (r : LoadResult) : Bool :=
  match r.status with
  | .failed _ => true
  | _ => false

namespace PolicyFolder

theorem offerAll_append (folder : PolicyFolder) (a b : List (FilePath × Candidate)) :
    folder.offerAll (a ++ b) = ((folder.offerAll a).1 ++ ((folder.offerAll a).2.offerAll b).1,
      ((folder.offerAll a).2.offerAll b).2) := by
  induction a generalizing folder with
  | nil => rfl
  | cons c rest ih => rw [List.cons_append, offerAll, ih, offerAll, List.cons_append]

/-! ## files that are read -/

/-- What may become of a file that is read, in a load with these results and with `next` after it. A
document that is loaded is the only one kept with its identifier; one that is refused has that of a
document kept before the load or loaded from another file. -/
inductive Outcome (folder : PolicyFolder) (results : List LoadResult) (next : PolicyFolder)
    (path : FilePath) (text : Option String) : LoadStatus → Prop
  | faulty {cause : PolicyError} (parsed : parseFile text = .error cause) :
      Outcome folder results next path text (.failed (.faulty cause))
  | disabled {p : Policy} (parsed : parseFile text = .ok p) (disabled : p.metadata.enabled = false) :
      Outcome folder results next path text (.skipped .disabled)
  | loaded {p : Policy} (parsed : parseFile text = .ok p) (enabled : p.metadata.enabled = true)
      (kept : (path, p) ∈ next.documents)
      (alone : ∀ d ∈ next.documents, d.2.metadata.id = p.metadata.id → d.1 = path) :
      Outcome folder results next path text (.loaded p.metadata.id p.rules.length)
  | duplicate {p : Policy} {other : FilePath} (parsed : parseFile text = .ok p)
      (enabled : p.metadata.enabled = true) (elsewhere : other ≠ path)
      (taken : (∃ q, (other, q) ∈ folder.documents ∧ q.metadata.id = p.metadata.id) ∨
        ∃ rules, ⟨other, .loaded p.metadata.id rules⟩ ∈ results) :
      Outcome folder results next path text
        (.failed (.duplicate p.metadata.id (pathText folder.root other)))

/-- A document that is the only one with its identifier stays so while other files are visited. -/
theorem kept_offerAll (folder : PolicyFolder) {path : FilePath} {p : Policy}
    {cs : List (FilePath × Candidate)} (others : ∀ c ∈ cs, c.1 ≠ path)
    (kept : (path, p) ∈ folder.documents)
    (alone : ∀ d ∈ folder.documents, d.2.metadata.id = p.metadata.id → d.1 = path) :
    (path, p) ∈ (folder.offerAll cs).2.documents ∧
      ∀ d ∈ (folder.offerAll cs).2.documents, d.2.metadata.id = p.metadata.id → d.1 = path := by
  induction cs generalizing folder with
  | nil => exact ⟨kept, alone⟩
  | cons c rest ih =>
    obtain ⟨hne, hrest⟩ := List.forall_mem_cons.mp others
    rcases folder.offer_cases c.1 c.2 with ⟨h, -⟩ | ⟨q, -, hfree, h⟩
    · rw [offerAll, h]
      exact ih folder hrest kept alone
    · rw [offerAll, h]
      refine ih _ hrest (mem_keepDocument_of_ne q _ kept (Ne.symm hne)) fun d hd hid => ?_
      rcases eq_or_mem_of_mem_keepDocument _ hd with rfl | hd
      · exact absurd (hfree (path, p) kept hid.symm).symm hne
      · exact alone d hd hid

/-- What becomes of a file that is read, among others with other paths. -/
theorem outcome_offerAll {folder : PolicyFolder} (before after : List (FilePath × Candidate))
    {path : FilePath} {text : Option String} (others : ∀ c ∈ after, c.1 ≠ path) :
    Outcome folder (folder.offerAll (before ++ (path, .ofText text) :: after)).1
      (folder.offerAll (before ++ (path, .ofText text) :: after)).2 path text
      ((folder.offerAll before).2.offer path (.ofText text)).1 := by
  rw [offerAll_append, offerAll, Candidate.ofText]
  cases parsed : parseFile text with
  | error cause => exact .faulty parsed
  | ok p =>
    cases enabled : p.metadata.enabled with
    | false =>
      simp only [enabled]
      exact .disabled parsed enabled
    | true =>
      simp only [enabled, if_true]
      rw [offer]
      cases hfind : (folder.offerAll before).2.documents.find? (isTakenBy path p.metadata.id) with
      | some d =>
        obtain ⟨helsewhere, hid⟩ := (isTakenBy_iff path _ d).mp (List.find?_some hfind)
        have htaken := mem_or_loaded_of_mem_offerAll (List.mem_of_find?_eq_some hfind)
        rw [offerAll_root]
        refine .duplicate parsed enabled helsewhere (htaken.imp (fun h => ⟨d.2, h, hid⟩) fun h => ?_)
        exact ⟨d.2.rules.length, List.mem_append_left _ (hid ▸ h)⟩
      | none =>
        obtain ⟨hkept, halone⟩ := kept_offerAll { (folder.offerAll before).2 with
            documents := keepDocument path p (folder.offerAll before).2.documents } others
          (mem_keepDocument_self path p _) fun d hd hid => by
            rcases eq_or_mem_of_mem_keepDocument _ hd with rfl | hd
            · rfl
            · by_contra hne
              exact List.find?_eq_none.mp hfind d hd ((isTakenBy_iff path _ d).mpr ⟨hne, hid⟩)
        exact .loaded parsed enabled hkept halone

/-! ## files that fail -/

theorem offer_of_failed {folder : PolicyFolder} {path : FilePath} {c : Candidate}
    (h : LoadResult.failed ⟨path, (folder.offer path c).1⟩ = true) :
    (folder.offer path c).2 = folder := by
  rcases folder.offer_cases path c with ⟨hsame, -⟩ | ⟨p, -, -, hloaded⟩
  · exact hsame
  · rw [hloaded] at h
    cases h

/-- The files that did not fail, visited by themselves, have the same results and leave the same
documents. -/
theorem visitAll_without_failed (folder : PolicyFolder) (files : List (FilePath × Option String))
    (sound : FilePath → Bool)
    (h : ∀ r ∈ (folder.visitAll files).1, sound r.path = !r.failed) :
    folder.visitAll (files.filter fun f => sound f.1)
      = ((folder.visitAll files).1.filter fun r => !r.failed, (folder.visitAll files).2) := by
  induction files generalizing folder with
  | nil => rfl
  | cons f rest ih =>
    rw [visitAll_cons, visit_eq_offer] at h ⊢
    obtain ⟨hfirst, hrest⟩ := List.forall_mem_cons.mp h
    have hrest := ih (folder.offer f.1 (.ofFile f.1 f.2)).2 hrest
    rw [List.filter_cons, List.filter_cons]
    cases hfailed : LoadResult.failed ⟨f.1, (folder.offer f.1 (.ofFile f.1 f.2)).1⟩ with
    | true =>
      rw [hfailed] at hfirst
      rw [offer_of_failed hfailed] at hrest ⊢
      rw [if_neg (by rw [hfirst]; decide), if_neg (by decide)]
      exact hrest
    | false =>
      rw [hfailed] at hfirst
      rw [if_pos (by rw [hfirst]; rfl), if_pos (by decide), visitAll_cons, visit_eq_offer, hrest]

/-! ## the results of a load -/

/-- A result is what becomes of a candidate after those before it. -/
theorem exists_offer_of_mem {folder : PolicyFolder} {cs : List (FilePath × Candidate)}
    {r : LoadResult} (h : r ∈ (folder.offerAll cs).1) : ∃ before c after,
      cs = before ++ (r.path, c) :: after ∧
        r.status = ((folder.offerAll before).2.offer r.path c).1 := by
  induction cs generalizing folder with
  | nil => cases h
  | cons c rest ih =>
    rcases List.mem_cons.mp h with rfl | h
    · exact ⟨[], c.2, rest, rfl, rfl⟩
    · obtain ⟨before, c', after, rfl, hstatus⟩ := ih h
      exact ⟨c :: before, c', after, rfl, hstatus⟩

/-- What a load says of a file with this name. -/
structure Says (folder : PolicyFolder) (results : List LoadResult) (next : PolicyFolder)
    (path : FilePath) (name : String) (text : Option String) (status : LoadStatus) : Prop where
  hidden : isHiddenName name = true → status = .skipped .hidden
  other : isHiddenName name = false → ¬ NamesYaml name → status = .skipped .notYaml
  read : isHiddenName name = false → NamesYaml name → folder.Outcome results next path text status

theorem says_offerAll {folder : PolicyFolder} {cs before after : List (FilePath × Candidate)}
    {path above : FilePath} {name : String} {text : Option String} (hpath : path = above ++ [name])
    (hcs : cs = before ++ (path, .ofFile path text) :: after) (others : ∀ c ∈ after, c.1 ≠ path) :
    Says folder (folder.offerAll cs).1 (folder.offerAll cs).2 path name text
      ((folder.offerAll before).2.offer path (.ofFile path text)).1 := by
  have hname : path.getLast?.getD "" = name := by
    rw [hpath, List.getLast?_concat, Option.getD_some]
  refine ⟨fun hidden => ?_, fun hidden hyaml => ?_, fun hidden hyaml => ?_⟩
  · rw [Candidate.ofFile_hidden (hname ▸ hidden), offer]
  · rw [Candidate.ofFile_other (hname ▸ hidden), offer]
    rwa [hname, ← Bool.not_eq_true, isYamlName_iff]
  · rw [Candidate.ofFile_yaml (hname ▸ hidden) (hname ▸ (isYamlName_iff name).mpr hyaml)] at hcs ⊢
    rw [hcs]
    exact outcome_offerAll before after others

/-! ## the load of a folder -/

section
variable (folder : PolicyFolder) {entries : List (String × FileTree)}

theorem mem_paths_iff (path : FilePath) :
    path ∈ (folder.offerAll (FileTree.folder entries).candidates).1.map LoadResult.path ↔
      ∃ text, (FileTree.folder entries).StandsAt path (.file text) ∧ FileTree.Shown path := by
  have hpaths : (FileTree.folder entries).candidates.map Prod.fst
      = (FileTree.folder entries).visited.map Prod.fst := by
    rw [FileTree.candidates, List.map_map]
    rfl
  rw [map_path_offerAll, hpaths]
  simp only [List.mem_map, Prod.exists, exists_and_right, exists_eq_right, FileTree.mem_visited_iff]

/-- Each result is under the path of a file and says what is asked of it. -/
theorem exists_says (distinct : (FileTree.folder entries).Distinct) {r : LoadResult}
    (hr : r ∈ (folder.offerAll (FileTree.folder entries).candidates).1) :
    ∃ above name text, r.path = above ++ [name] ∧
      (FileTree.folder entries).StandsAt r.path (.file text) ∧
      Says folder (folder.offerAll (FileTree.folder entries).candidates).1
        (folder.offerAll (FileTree.folder entries).candidates).2 r.path name text r.status := by
  obtain ⟨before, c, after, hcs, hstatus⟩ := exists_offer_of_mem hr
  have hmem : (r.path, c) ∈ (FileTree.folder entries).candidates :=
    hcs ▸ List.mem_append_right _ List.mem_cons_self
  obtain ⟨⟨path, text⟩, hfile, heq⟩ := List.mem_map.mp hmem
  obtain ⟨hpath, hc⟩ := Prod.mk.inj heq
  obtain rfl : path = r.path := hpath
  subst hc
  obtain ⟨hstands, -⟩ := (FileTree.mem_visited_iff _ _ _).mp hfile
  obtain ⟨above, name, hname⟩ := hstands.exists_name
  have hothers : ∀ c ∈ after, c.1 ≠ r.path := by
    have hincreasing := FileTree.candidates_increasing distinct
    rw [hcs] at hincreasing
    intro c hc
    exact (List.rel_of_pairwise_cons (List.pairwise_append.mp hincreasing).2.1 hc).ne'
  exact ⟨above, name, text, hname, hstands, hstatus ▸ says_offerAll hname hcs hothers⟩

/-- Among results in order a file failed when its own result says so. -/
theorem any_failed_eq {results : List LoadResult}
    (ordered : results.Pairwise fun r s => r.path < s.path) {r : LoadResult} (hr : r ∈ results) :
    (results.any fun s => s.failed && s.path == r.path) = r.failed := by
  rw [Bool.eq_iff_iff, List.any_eq_true]
  simp only [Bool.and_eq_true, beq_iff_eq]
  constructor
  · rintro ⟨s, hs, hfailed, hpath⟩
    have hnodup : (results.map LoadResult.path).Nodup :=
      List.pairwise_map.mpr (ordered.imp fun hlt => hlt.ne)
    exact List.inj_on_of_nodup_map hnodup hs hr hpath ▸ hfailed
  · exact fun hfailed => ⟨r, hr, hfailed, rfl⟩

end

/-- **A load loses and repeats nothing.** A root that is a file gives one result, whatever its name. A
root that is a folder gives one result for each file below folders whose names start with no dot, in the
order of the paths, and the files are met in the order of a search level by level. A result says what the
name and the text of its file ask for; the files that did not fail would have the same results without
the others. -/
theorem loadAll_lists {folder next : PolicyFolder} {disk : Disk} {tree : FileTree}
    {results : List LoadResult} (found : disk folder.root = .ok tree) (distinct : tree.Distinct)
    (h : folder.loadAll disk = .ok (results, next)) :
    (∀ text, tree = .file text →
      ∃ status, results = [⟨[], status⟩] ∧ folder.Outcome results next [] text status) ∧
    ∀ entries, tree = .folder entries →
      (results.Pairwise fun r s => r.path < s.path) ∧
      (∀ path, path ∈ results.map LoadResult.path ↔
        ∃ text, tree.StandsAt path (.file text) ∧ FileTree.Shown path) ∧
      (∀ r ∈ results, ∃ above name text, r.path = above ++ [name] ∧
        tree.StandsAt r.path (.file text) ∧
        folder.Says results next r.path name text r.status) ∧
      folder.search [] tree.sorted.entries = (results, next) ∧
      folder.visitAll (tree.visited.filter fun f => !results.any fun r => r.failed && r.path == f.1)
        = (results.filter fun r => !r.failed, next) := by
  obtain ⟨tree', htree', hout⟩ := (loadAll_eq_ok_iff _ _ _).mp h
  cases found.symm.trans htree'
  obtain ⟨rfl, rfl⟩ := Prod.mk.inj hout
  refine ⟨?_, ?_⟩
  · rintro text rfl
    exact ⟨(folder.offer [] (.ofText text)).1, rfl, outcome_offerAll [] [] nofun⟩
  · rintro entries rfl
    have hordered := pairwise_path_offerAll folder (FileTree.candidates_increasing distinct)
    have hvisit := visitAll_eq_offerAll folder (FileTree.folder entries).visited
    refine ⟨hordered, folder.mem_paths_iff, fun r => folder.exists_says distinct, ?_, ?_⟩
    · rw [← loadTree_eq_search, loadTree_eq_offerAll]
    · have hsound := visitAll_without_failed folder (FileTree.folder entries).visited
        (fun path => !(folder.offerAll (FileTree.folder entries).candidates).1.any
          fun r => r.failed && r.path == path)
        fun r hr => congrArg not (any_failed_eq hordered (hvisit ▸ hr))
      rw [hsound, hvisit]
      rfl

/-- A folder named like a YAML file, one whose name starts with a dot, and one whose name goes on with a
character before the slash. -/
theorem loadAll_lists_nested :
    let policy (id : String) : Option String :=
      some ("apiVersion: v1\nkind: Policy\nmetadata: \x7bid: " ++ id ++ "\x7d\n")
    let tree : FileTree := .folder [(".env", .file none), (".git", .folder [("c.yml", .file none)]),
      ("a", .folder [("x.yml", .file (policy "s")), ("y.yml", .file (some "["))]),
      ("a-b", .folder [("x.yml", .file (policy "t"))]), ("d.yml", .folder [("e", .file none)])]
    let disk := FileTree.locate (.folder [("p", tree)])
    let word : LoadStatus → String
      | .loaded id _ => id
      | .skipped reason => reason.message
      | .failed _ => "failed"
    ∃ results next, (fresh "p").loadAll disk = .ok (results, next) ∧
      (results.map fun r => ((fresh "p").resultPath r, word r.status))
        = [("p/.env", "dotfile"), ("p/a/x.yml", "s"), ("p/a/y.yml", "failed"),
          ("p/a-b/x.yml", "t"), ("p/d.yml/e", "not a YAML file")] ∧
      (∀ path, path ∈ results.map LoadResult.path ↔
        ∃ text, tree.StandsAt path (.file text) ∧ FileTree.Shown path) ∧
      (fresh "p").search [] tree.sorted.entries = (results, next) := by
  intro policy tree disk word
  have hvisited : ∀ x y z : Option String,
      (FileTree.folder [(".env", .file none), (".git", .folder [("c.yml", .file none)]),
        ("a", .folder [("x.yml", .file x), ("y.yml", .file y)]),
        ("a-b", .folder [("x.yml", .file z)]), ("d.yml", .folder [("e", .file none)])]).visited
        = [([".env"], none), (["a", "x.yml"], x), (["a", "y.yml"], y), (["a-b", "x.yml"], z),
          (["d.yml", "e"], none)] := by
    intro x y z
    refine FileTree.visited_eq (by simp [FileTree.Distinct, FileTree.DistinctIn, Fields.keys])
      (by simp only [FileTree.files, FileTree.filesIn]; rfl) ?_
    show List.Pairwise _ [[".env"], ["a", "x.yml"], ["a", "y.yml"], ["a-b", "x.yml"], ["d.yml", "e"]]
    decide +kernel
  have hdistinct : tree.Distinct := by
    simp [tree, FileTree.Distinct, FileTree.DistinctIn, Fields.keys]
  have hload : (fresh "p").loadAll disk = .ok ((fresh "p").visitAll
      [([".env"], none), (["a", "x.yml"], policy "s"), (["a", "y.yml"], some "["),
        (["a-b", "x.yml"], policy "t"), (["d.yml", "e"], none)]) := by
    rw [← hvisited, loadAll_eq, show disk (fresh "p").root = .ok tree from rfl]
    rfl
  obtain ⟨-, hlists⟩ := loadAll_lists (rfl : disk (fresh "p").root = .ok tree) hdistinct hload
  obtain ⟨-, hlisted, -, hsearch, -⟩ := hlists _ rfl
  refine ⟨_, _, hload, ?_, hlisted, hsearch⟩
  decide +kernel

end PolicyFolder

end AccessFilter
