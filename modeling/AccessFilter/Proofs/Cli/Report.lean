import AccessFilter.Cli.Report
import AccessFilter.Proofs.Filter.Clause
import AccessFilter.Proofs.Operator.Builtin
import AccessFilter.Proofs.Policy.FirstLoad

/-!
# A filter is made from a complete policy only

The rules of a report are those of all enabled valid documents below the policy path, in the order of
the paths. One file that fails to load is enough to give no report.

* `Rule.Concerns`              a rule is meant for an action on a subject;
* `loadPolicies_eq_ok_iff`, `firstFailure?_eq_none_iff`   the stages of a report;
* `adapter_filterSource`      the operators of the settings;
* `compileFilter_eq_ok_iff`    when there is a report, and which.
-/

namespace AccessFilter

/-! ## the rules of a request -/

/-- The rule names the action, or every action, and the subject, or every subject. -/
def Rule.Concerns (r : Rule) (action subject : String) : Prop :=
  (action ∈ r.actions ∨ "manage" ∈ r.actions) ∧ (subject ∈ r.subjects ∨ "all" ∈ r.subjects)

instance (r : Rule) (action subject : String) : Decidable (r.Concerns action subject) :=
  inferInstanceAs (Decidable (_ ∧ _))

theorem any_eq_or_iff (names : List String) (name wildcard : String) :
    names.any (fun a => a == name || a == wildcard) = true ↔ name ∈ names ∨ wildcard ∈ names := by
  simp only [List.any_eq_true, Bool.or_eq_true, beq_iff_eq]
  constructor
  · rintro ⟨a, ha, rfl | rfl⟩
    · exact Or.inl ha
    · exact Or.inr ha
  · rintro (h | h)
    · exact ⟨name, h, Or.inl rfl⟩
    · exact ⟨wildcard, h, Or.inr rfl⟩

theorem Rule.applies_eq_decide (r : Rule) (action subject : String) :
    r.applies action subject = decide (r.Concerns action subject) := by
  rw [Bool.eq_iff_iff, decide_eq_true_iff, applies, Bool.and_eq_true, any_eq_or_iff, any_eq_or_iff]
  rfl

theorem rulesFor_policySet (folder : PolicyFolder) (action subject : String) :
    folder.policySet.rulesFor action subject
      = (folder.documents.flatMap fun d => d.2.rules).filter fun r => r.Concerns action subject := by
  rw [PolicySet.rulesFor, PolicyFolder.policySet]
  exact List.filter_congr fun r _ => r.applies_eq_decide action subject

/-! ## the stages of a report -/

theorem mapError_eq_ok_iff {ε ε' α : Type} (f : ε → ε') (x : Except ε α) (a : α) :
    x.mapError f = .ok a ↔ x = .ok a := by
  cases x <;> simp [Except.mapError]

theorem requireSchema_eq_ok_iff (s : Settings) (path : String) :
    s.requireSchema = .ok path ↔ s.schemaPath = some path := by
  rw [Settings.requireSchema]
  cases s.schemaPath <;> simp

theorem loadPolicies_eq_ok_iff (disk : Disk) (s : Settings)
    (out : List LoadResult × PolicyFolder) :
    loadPolicies disk s = .ok out ↔
      ∃ tree, disk s.policyPath = .ok tree ∧
        (PolicyFolder.fresh s.policyPath).loadTree tree = out := by
  have hload : loadPolicies disk s = .ok out ↔
      (PolicyFolder.fresh s.policyPath).loadAll disk = .ok out := by
    rw [loadPolicies, PolicyFolder.fresh]
    cases PolicyFolder.loadAll { root := s.policyPath } disk <;> simp
  rw [hload, PolicyFolder.loadAll_eq, map_eq_ok_iff]
  rfl

theorem firstFailure?_eq_none_iff (results : List LoadResult) :
    firstFailure? results = none ↔ ∀ r ∈ results, ∀ fault, r.status ≠ .failed fault := by
  rw [firstFailure?, List.findSome?_eq_none_iff]
  refine forall₂_congr fun r _ => ?_
  cases r.status <;> simp

theorem adapter_filterSource (s : Settings) (schema : Schema) (source : RuleSource)
    (action subject : String) :
    (s.adapter schema).filterSource source action subject
      = compile schema (if s.comparisons then Registry.standard.withComparisons else .standard)
          (source action subject) := by
  rw [Settings.adapter]
  cases s.comparisons with
  | false => rfl
  | true =>
    show compile schema (Registry.standard.overlay Registry.empty.withComparisons) _ = _
    rw [Registry.standard_overlay_comparisons]
    rfl

theorem compileFilter_eq_ok_iff_stages (disk : Disk) (s : Settings) (action subject : String)
    (report : FilterReport) :
    compileFilter disk s action subject = .ok report ↔
      ∃ path schema results folder filter,
        s.schemaPath = some path ∧ TableSchema.load disk path = .ok schema ∧
        loadPolicies disk s = .ok (results, folder) ∧ firstFailure? results = none ∧
        ((s.adapter schema.lookup).filterSource folder.policySet.rulesFor action subject).result
          = .ok filter ∧
        report = {
          action := action
          subject := subject
          rules := (folder.policySet.rulesFor action subject).length
          placeholder := s.placeholder
          fragment := filter.fragment s.placeholder } := by
  rw [compileFilter, bind_eq_ok_iff]
  simp only [bind_eq_ok_iff, mapError_eq_ok_iff, requireSchema_eq_ok_iff, Prod.exists]
  constructor
  · rintro ⟨path, hpath, schema, hschema, results, folder, hload, h⟩
    cases hfirst : firstFailure? results with
    | some failure =>
      rw [hfirst] at h
      cases h
    | none =>
      rw [hfirst] at h
      obtain ⟨filter, hfilter, hreport⟩ := (bind_eq_ok_iff _ _ _).mp h
      cases hreport
      exact ⟨path, schema, results, folder, filter, hpath, hschema, hload, hfirst,
        (mapError_eq_ok_iff _ _ _).mp hfilter, rfl⟩
  · rintro ⟨path, schema, results, folder, filter, hpath, hschema, hload, hnone, hfilter, rfl⟩
    refine ⟨path, hpath, schema, hschema, results, folder, hload, ?_⟩
    rw [hnone]
    exact (bind_eq_ok_iff _ _ _).mpr ⟨filter, (mapError_eq_ok_iff _ _ _).mpr hfilter, rfl⟩

/-! ## the report -/

/-- **A filter is made from a complete policy only.** There is a report exactly when the schema is
given and is a valid table, the policies are there, none of their files fails to load, and the rules
for the request compile: those of all enabled valid documents in the order of their paths. The report
then counts these rules and has their filter in the style of the settings. That no folder repeats a
name is so of every tree that is made by writing and removing (`FileTree.distinct_locate`). -/
theorem compileFilter_eq_ok_iff (disk : Disk) (s : Settings) (action subject : String)
    (distinct : ∀ tree, disk s.policyPath = .ok tree → tree.Distinct) (report : FilterReport) :
    compileFilter disk s action subject = .ok report ↔
      ∃ path schema tree docs filter,
        s.schemaPath = some path ∧ TableSchema.load disk path = .ok schema ∧
        disk s.policyPath = .ok tree ∧
        (∀ r ∈ ((PolicyFolder.fresh s.policyPath).loadTree tree).1,
          ∀ fault, r.status ≠ .failed fault) ∧
        Increasing docs ∧ (∀ path p, (path, p) ∈ docs ↔ tree.Holds path p) ∧
        let rules := (docs.flatMap fun d => d.2.rules).filter fun r => r.Concerns action subject
        let ops := if s.comparisons then Registry.standard.withComparisons else .standard
        (compile schema.lookup ops rules).result = .ok filter ∧
        report = {
          action := action
          subject := subject
          rules := rules.length
          placeholder := s.placeholder
          fragment := filter.fragment s.placeholder } := by
  rw [compileFilter_eq_ok_iff_stages]
  constructor
  · rintro ⟨path, schema, results, folder, filter, hpath, hschema, hload, hnone, hfilter, hreport⟩
    obtain ⟨tree, htree, hout⟩ := (loadPolicies_eq_ok_iff disk s _).mp hload
    have hsound := (firstFailure?_eq_none_iff results).mp hnone
    obtain ⟨rfl, rfl⟩ := Prod.ext_iff.mp hout
    have hdocs := PolicyFolder.documents_fresh_of_sound s.policyPath (distinct tree htree) hsound
    rw [adapter_filterSource, rulesFor_policySet, hdocs] at hfilter
    rw [rulesFor_policySet, hdocs] at hreport
    exact ⟨path, schema, tree, tree.policies, filter, hpath, hschema, htree, hsound,
      FileTree.policies_increasing (distinct tree htree), tree.mem_policies_iff, hfilter, hreport⟩
  · rintro ⟨path, schema, tree, docs, filter, hpath, hschema, htree, hsound, hincreasing, hholds,
      hfilter, hreport⟩
    -- in order of their paths there is one list only of the documents of the tree
    have hdocs : docs = ((PolicyFolder.fresh s.policyPath).loadTree tree).2.documents := by
      rw [PolicyFolder.documents_fresh_of_sound s.policyPath (distinct tree htree) hsound]
      refine hincreasing.ext (FileTree.policies_increasing (distinct tree htree)) fun d => ?_
      rw [hholds, FileTree.mem_policies_iff]
    rw [hdocs, ← rulesFor_policySet] at hfilter hreport
    refine ⟨path, schema, _, _, filter, hpath, hschema,
      (loadPolicies_eq_ok_iff disk s _).mpr ⟨tree, htree, rfl⟩,
      (firstFailure?_eq_none_iff _).mpr hsound, ?_, hreport⟩
    rw [adapter_filterSource]
    exact hfilter

/-- Two files, of which the first denies to everyone. -/
theorem compileFilter_eq_ok_iff_two_files :
    let policy (id rule : String) := "apiVersion: v1\nkind: Policy\nmetadata: \x7bid: " ++ id ++
      "\x7d\nrules:\n- \x7b" ++ rule ++ "\x7d\n"
    let deny := policy "a"
      "action: manage, subject: all, inverted: true, conditions: \x7bviews: 0\x7d"
    let allow := policy "b" "action: read, subject: Site, conditions: \x7bowner: u1\x7d"
    let tree : FileTree := .folder [("a.yml", .file (some deny)), ("b.yml", .file (some allow))]
    let table := "table: sites\ncolumns:\n  owner: owner_id\n  views: views\n"
    let disk := FileTree.locate (.folder [("p", tree), ("s.yml", .file (some table))])
    let s : Settings := ⟨"p", some "s.yml", .numbered, true⟩
    (∀ tree, disk s.policyPath = .ok tree → tree.Distinct) ∧
      ∃ report, compileFilter disk s "read" "Site" = .ok report ∧
        report.fragment.sql = "(\"sites\".\"owner_id\" = $1 AND NOT (\"sites\".\"views\" = $2))" ∧
        ∃ docs, Increasing docs ∧ (∀ path p, (path, p) ∈ docs ↔ tree.Holds path p) ∧
          ((docs.flatMap fun d => d.2.rules).filter fun r => r.Concerns "read" "Site").length
            = 2 := by
  intro policy deny allow tree table disk s
  have htree : disk "p" = .ok tree := by
    show (FileTree.folder [("p", tree), ("s.yml", .file (some table))]).locate "p" = _
    rfl
  have htop : (FileTree.folder [("p", tree), ("s.yml", .file (some table))]).Distinct := by
    simp [tree, FileTree.Distinct, FileTree.DistinctIn, Fields.keys]
  have distinct : ∀ tree, disk s.policyPath = .ok tree → tree.Distinct :=
    fun _ h => FileTree.distinct_locate htop h
  have hfiles : tree.files = [(["a.yml"], some deny), (["b.yml"], some allow)] := by
    rw [FileTree.files, FileTree.filesIn, FileTree.filesIn, FileTree.filesIn]
  -- sorting does not compute in the kernel, and the files are in order already
  have hvisited : tree.visited = tree.files := by
    refine FileTree.visited_of_ordered (distinct tree htree) ?_
    rw [hfiles]
    decide +kernel
  have hload : loadPolicies disk s = .ok ((PolicyFolder.fresh "p").visitAll
      [(["a.yml"], some deny), (["b.yml"], some allow)]) := by
    refine (loadPolicies_eq_ok_iff disk s _).mpr ⟨tree, htree, ?_⟩
    rw [← hfiles, ← hvisited]
    rfl
  have hmade : (compileFilter disk s "read" "Site").toOption.map
      (fun r => (r.rules, r.fragment.sql))
        = some (2, "(\"sites\".\"owner_id\" = $1 AND NOT (\"sites\".\"views\" = $2))") := by
    simp only [compileFilter, hload]
    decide +kernel
  cases hreport : compileFilter disk s "read" "Site" with
  | error e =>
    rw [hreport] at hmade
    cases hmade
  | ok report =>
    rw [hreport] at hmade
    obtain ⟨hrules, hsql⟩ := Prod.ext_iff.mp (Option.some.inj hmade)
    obtain ⟨path, schema, tree', docs, filter, -, -, htree', -, hincreasing, hholds, -, rfl⟩ :=
      (compileFilter_eq_ok_iff disk s "read" "Site" distinct report).mp hreport
    cases htree.symm.trans htree'
    exact ⟨distinct, _, rfl, hsql, docs, hincreasing, hholds, hrules⟩

end AccessFilter
