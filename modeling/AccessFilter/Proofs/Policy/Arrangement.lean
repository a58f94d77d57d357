import AccessFilter.Proofs.Cli.Report
import AccessFilter.Proofs.Filter.Expansion

/-!
# Rules in whatever files

After a first load in which no file failed, the rules are those of all enabled documents. How they
are spread over documents, files and folders decides their order and how often each stands there,
and a filter asks for neither.

* `FileTree.Declares`         a rule of an enabled valid document of a tree;
* `SoundLoad`                 a first load in which no file failed;
* `SoundLoad.mem_rulesFor_iff`   the rules of a request after such a load;
* `filterSource_of_declares`  trees that declare the same rules give the same access.
-/

namespace AccessFilter

/-- Some enabled valid document of the tree has the rule. -/
def FileTree.Declares (tree : FileTree) (r : Rule) : Prop :=
  ∃ path p, tree.Holds path p ∧ r ∈ p.rules

theorem FileTree.declares_iff_candidate (tree : FileTree) (r : Rule) :
    tree.Declares r ↔ ∃ c ∈ tree.candidates, ∃ p, c.2.policy? = some p ∧ r ∈ p.rules := by
  simp only [Declares, ← mem_policies_iff, mem_policies_iff_candidate, Prod.exists]
  constructor
  · rintro ⟨path, p, ⟨c, hc, hp⟩, hr⟩
    exact ⟨path, c, hc, p, hp, hr⟩
  · rintro ⟨path, c, hc, p, hp, hr⟩
    exact ⟨path, p, ⟨c, hc, hp⟩, hr⟩

/-- The first load of a tree, in which no file failed, and what is kept after it. -/
structure SoundLoad (root : String) (disk : Disk) (tree : FileTree) (folder : PolicyFolder) :
    Prop where
  found : disk root = .ok tree
  distinct : tree.Distinct
  loaded : ∃ results, (PolicyFolder.fresh root).loadAll disk = .ok (results, folder) ∧
    ∀ r ∈ results, ∀ fault, r.status ≠ .failed fault

namespace SoundLoad

variable {root root' : String} {disk disk' : Disk} {tree tree' : FileTree}
  {folder folder' : PolicyFolder}

/-- The load of a folder whose files are visited in this order. -/
theorem of_visited {entries : List (String × FileTree)} {files : List (FilePath × Option String)}
    (found : disk root = .ok (.folder entries)) (distinct : (FileTree.folder entries).Distinct)
    (visited : (FileTree.folder entries).visited = files)
    (sound : (firstFailure? ((PolicyFolder.fresh root).visitAll files).1).isNone = true) :
    SoundLoad root disk (.folder entries) ((PolicyFolder.fresh root).visitAll files).2 := by
  refine ⟨found, distinct, ((PolicyFolder.fresh root).visitAll files).1, ?_,
    (firstFailure?_eq_none_iff _).mp (Option.isNone_iff_eq_none.mp sound)⟩
  rw [PolicyFolder.loadAll_eq, show disk (PolicyFolder.fresh root).root = _ from found, ← visited]
  rfl

theorem documents_eq (load : SoundLoad root disk tree folder) :
    folder.documents = tree.policies := by
  obtain ⟨results, hload, hsound⟩ := load.loaded
  rw [PolicyFolder.loadAll_eq, show disk (PolicyFolder.fresh root).root = .ok tree from load.found]
    at hload
  obtain ⟨rfl, rfl⟩ := Prod.ext_iff.mp (Except.ok.inj hload)
  exact PolicyFolder.documents_fresh_of_sound root load.distinct hsound

theorem mem_policySet_iff (load : SoundLoad root disk tree folder) (r : Rule) :
    r ∈ folder.policySet.rules ↔ tree.Declares r := by
  rw [PolicyFolder.policySet, load.documents_eq, List.mem_flatMap]
  simp only [Prod.exists, FileTree.mem_policies_iff, FileTree.Declares]

theorem mem_rulesFor_iff (load : SoundLoad root disk tree folder) (action subject : String)
    (r : Rule) : r ∈ folder.policySet.rulesFor action subject ↔
      tree.Declares r ∧ r.applies action subject = true := by
  rw [PolicySet.rulesFor, List.mem_filter, load.mem_policySet_iff]

/-- The rules of a request after one load are among those after another. -/
theorem restated (load : SoundLoad root disk tree folder)
    (load' : SoundLoad root' disk' tree' folder')
    (declared : ∀ r, tree.Declares r → tree'.Declares r) (action subject : String) :
    RestatedIn (folder.policySet.rulesFor action subject)
      (folder'.policySet.rulesFor action subject) := by
  intro r hr
  obtain ⟨hdeclared, happlies⟩ := (load.mem_rulesFor_iff action subject r).mp hr
  exact ⟨r, (load'.mem_rulesFor_iff action subject r).mpr ⟨declared r hdeclared, happlies⟩, rfl, rfl⟩

end SoundLoad

/-- **How rules are spread over files does not change access.** Take two trees, wherever they stand,
whose enabled documents have the same rules, and load each for the first time with no file failing.
Every request then has a filter after both loads or after none, and the two filters have the same
truth on every row. -/
theorem filterSource_of_declares {root root' : String} {disk disk' : Disk} {tree tree' : FileTree}
    {folder folder' : PolicyFolder} (load : SoundLoad root disk tree folder)
    (load' : SoundLoad root' disk' tree' folder')
    (same : ∀ r, tree.Declares r ↔ tree'.Declares r) (a : Adapter) (action subject : String) :
    ((∃ p, (a.filterSource folder.policySet.rulesFor action subject).result = .ok p) ↔
        ∃ q, (a.filterSource folder'.policySet.rulesFor action subject).result = .ok q) ∧
      ∀ p q, (a.filterSource folder.policySet.rulesFor action subject).result = .ok p →
        (a.filterSource folder'.policySet.rulesFor action subject).result = .ok q →
          ∀ row, p.evaluate row = q.evaluate row := by
  have h := load.restated load' (fun r => (same r).mp) action subject
  have h' := load'.restated load (fun r => (same r).mpr) action subject
  exact ⟨⟨h'.exists_ok, h.exists_ok⟩, fun p q hp hq => evaluate_of_restated h h' hp hq⟩

/-- Two files, and the same documents the other way round, one of them below a folder, next to a
disabled document and a file that is no policy. The filters have their parts in another order. -/
theorem filterSource_of_declares_moved :
    let policy (id conditions : String) : Option String :=
      some ("apiVersion: v1\nkind: Policy\nmetadata: \x7bid: " ++ id ++ "\x7d\nrules:\n" ++
        "- action: read\n  subject: Site\n  conditions: \x7b" ++ conditions ++ "\x7d\n")
    let owner := policy "o" "owner: u1"
    let shown := policy "s" "public: 1"
    let off : Option String :=
      some "apiVersion: v1\nkind: Policy\nmetadata: \x7bid: x, enabled: false\x7d\n"
    let tree : FileTree := .folder [("a.yml", .file owner), ("b.yml", .file shown)]
    let tree' : FileTree := .folder [("a.yml", .file shown), ("b", .folder [("x.yaml", .file owner)]),
      ("notes.txt", .file none), ("off.yml", .file off)]
    let disk := FileTree.locate (.folder [("p", tree), ("q", tree')])
    let a := Adapter.standard fun field => some ⟨"sites", field⟩
    ∃ folder folder', SoundLoad "p" disk tree folder ∧ SoundLoad "q" disk tree' folder' ∧
      (∀ r, tree.Declares r ↔ tree'.Declares r) ∧
      ∃ p q, (a.filterSource folder.policySet.rulesFor "read" "Site").result = .ok p ∧
        (a.filterSource folder'.policySet.rulesFor "read" "Site").result = .ok q ∧
        (p.fragment .numbered).sql = "(\"sites\".\"owner\" = $1 OR \"sites\".\"public\" = $2)" ∧
        (q.fragment .numbered).sql = "(\"sites\".\"public\" = $1 OR \"sites\".\"owner\" = $2)" ∧
        ∀ row, p.evaluate row = q.evaluate row := by
  intro policy owner shown off tree tree' disk a
  -- what does not depend on the texts is shown for any texts, so that none is read
  have hvisited : ∀ x y : Option String,
      (FileTree.folder [("a.yml", .file x), ("b.yml", .file y)]).visited
        = [(["a.yml"], x), (["b.yml"], y)] := by
    intro x y
    refine FileTree.visited_eq (by simp [FileTree.Distinct, FileTree.DistinctIn, Fields.keys])
      (by simp only [FileTree.files, FileTree.filesIn]) ?_
    show List.Pairwise _ [["a.yml"], ["b.yml"]]
    decide +kernel
  have hvisited' : ∀ x y z : Option String,
      (FileTree.folder [("a.yml", .file y), ("b", .folder [("x.yaml", .file x)]),
        ("notes.txt", .file none), ("off.yml", .file z)]).visited
        = [(["a.yml"], y), (["b", "x.yaml"], x), (["notes.txt"], none), (["off.yml"], z)] := by
    intro x y z
    refine FileTree.visited_eq (by simp [FileTree.Distinct, FileTree.DistinctIn, Fields.keys])
      (by simp only [FileTree.files, FileTree.filesIn]; rfl) ?_
    show List.Pairwise _ [["a.yml"], ["b", "x.yaml"], ["notes.txt"], ["off.yml"]]
    decide +kernel
  have hsame : ∀ x y z : Option String, (Candidate.ofText z).policy? = none → ∀ r,
      (FileTree.folder [("a.yml", .file x), ("b.yml", .file y)]).Declares r ↔
        (FileTree.folder [("a.yml", .file y), ("b", .folder [("x.yaml", .file x)]),
          ("notes.txt", .file none), ("off.yml", .file z)]).Declares r := by
    intro x y z hz r
    have hfirst : (FileTree.folder [("a.yml", .file x), ("b.yml", .file y)]).candidates
        = [(["a.yml"], .ofText x), (["b.yml"], .ofText y)] := by
      rw [FileTree.candidates, hvisited]
      simp only [List.map_cons, List.map_nil]
      rw [Candidate.ofFile_yaml (by decide) (by decide), Candidate.ofFile_yaml (by decide) (by decide)]
    have hsecond : (FileTree.folder [("a.yml", .file y), ("b", .folder [("x.yaml", .file x)]),
        ("notes.txt", .file none), ("off.yml", .file z)]).candidates
        = [(["a.yml"], .ofText y), (["b", "x.yaml"], .ofText x), (["notes.txt"], .passed .notYaml),
          (["off.yml"], .ofText z)] := by
      rw [FileTree.candidates, hvisited']
      simp only [List.map_cons, List.map_nil]
      rw [Candidate.ofFile_yaml (by decide) (by decide), Candidate.ofFile_yaml (by decide) (by decide),
        Candidate.ofFile_other (by decide) (by decide), Candidate.ofFile_yaml (by decide) (by decide)]
    have hnotes : (Candidate.passed .notYaml).policy? = none := rfl
    simp [FileTree.declares_iff_candidate, hfirst, hsecond, hz, hnotes, or_comm]
  have hdistinct : tree.Distinct ∧ tree'.Distinct := by
    simp [tree, tree', FileTree.Distinct, FileTree.DistinctIn, Fields.keys]
  have made : ∀ {x : Except CompileError Predicate} {sql : String},
      (x.toOption.map fun p => (p.fragment .numbered).sql) = some sql →
        ∃ p, x = .ok p ∧ (p.fragment .numbered).sql = sql := by
    rintro (e | p) sql h
    · cases h
    · exact ⟨p, rfl, Option.some.inj h⟩
  -- all that reads the texts, at once
  have computed :
      (firstFailure? ((PolicyFolder.fresh "p").visitAll
        [(["a.yml"], owner), (["b.yml"], shown)]).1).isNone = true ∧
      (firstFailure? ((PolicyFolder.fresh "q").visitAll [(["a.yml"], shown),
        (["b", "x.yaml"], owner), (["notes.txt"], none), (["off.yml"], off)]).1).isNone = true ∧
      (Candidate.ofText off).policy?.isNone = true ∧
      (a.filterSource ((PolicyFolder.fresh "p").visitAll
        [(["a.yml"], owner), (["b.yml"], shown)]).2.policySet.rulesFor "read" "Site").result.toOption.map
          (fun p => (p.fragment .numbered).sql)
        = some "(\"sites\".\"owner\" = $1 OR \"sites\".\"public\" = $2)" ∧
      (a.filterSource ((PolicyFolder.fresh "q").visitAll [(["a.yml"], shown),
        (["b", "x.yaml"], owner), (["notes.txt"], none), (["off.yml"], off)]).2.policySet.rulesFor
          "read" "Site").result.toOption.map (fun p => (p.fragment .numbered).sql)
        = some "(\"sites\".\"public\" = $1 OR \"sites\".\"owner\" = $2)" := by
    decide +kernel
  obtain ⟨hsound, hsound', hoff, hsql, hsql'⟩ := computed
  have found : disk "p" = .ok tree ∧ disk "q" = .ok tree' := ⟨rfl, rfl⟩
  have load := SoundLoad.of_visited found.1 hdistinct.1 (hvisited owner shown) hsound
  have load' := SoundLoad.of_visited found.2 hdistinct.2 (hvisited' owner shown off) hsound'
  have same := hsame owner shown off (Option.isNone_iff_eq_none.mp hoff)
  obtain ⟨p, hp, hpsql⟩ := made hsql
  obtain ⟨q, hq, hqsql⟩ := made hsql'
  exact ⟨_, _, load, load', same, p, q, hp, hq, hpsql, hqsql,
    (filterSource_of_declares load load' same a "read" "Site").2 p q hp hq⟩

end AccessFilter
