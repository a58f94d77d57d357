import AccessFilter.Proofs.Policy.Candidate

/-!
# The documents of a tree

* `FileTree.Holds`           a file of the tree is an enabled valid document;
* `FileTree.policies`        all such documents, in the order of the candidates;
* `FileTree.mem_policies_iff`, `policies_increasing`   these are the documents in question, in order.
-/

namespace AccessFilter

namespace FileTree

/-- At the path stands a file with an enabled valid document. Below a root folder names count: that of
the file is a YAML file's, and neither it nor, by what `files` lists, that of a folder starts with a
dot. -/
structure Holds (tree : FileTree) (path : FilePath) (p : Policy) : Prop where
  named : ∀ name ∈ path.getLast?, isHiddenName name = false ∧ isYamlName name = true
  enabled : p.metadata.enabled = true
  valid : ∃ text, (path, some text) ∈ tree.files ∧ Policy.parse text = .ok p

end FileTree

def Candidate.policy? : Candidate → Option Policy
  | .document p => some p
  | _ => none

theorem Candidate.policy?_ofText (text : Option String) (p : Policy) :
    (Candidate.ofText text).policy? = some p ↔
      p.metadata.enabled = true ∧ ∃ t, text = some t ∧ Policy.parse t = .ok p := by
  rw [ofText]
  cases text with
  | none => simp [PolicyFolder.parseFile, policy?]
  | some t =>
    rw [PolicyFolder.parseFile]
    cases hparse : Policy.parse t with
    | error e => simp [policy?, hparse]
    | ok q =>
      simp only [Option.some.injEq, exists_eq_left', hparse, Except.ok.injEq]
      cases henabled : q.metadata.enabled with
      | false =>
        constructor
        · intro h
          cases h
        · rintro ⟨hp, rfl⟩
          rw [henabled] at hp
          cases hp
      | true =>
        refine ⟨fun h => ?_, fun h => congrArg some h.2⟩
        cases h
        exact ⟨henabled, rfl⟩

theorem Candidate.policy?_ofFile (path : FilePath) (text : Option String) (p : Policy) :
    (Candidate.ofFile path text).policy? = some p ↔
      (isHiddenName (path.getLast?.getD "") = false ∧ isYamlName (path.getLast?.getD "") = true) ∧
        (Candidate.ofText text).policy? = some p := by
  rw [ofFile]
  cases isHiddenName (path.getLast?.getD "") with
  | true => simp [policy?]
  | false => cases isYamlName (path.getLast?.getD "") <;> simp [policy?]

namespace FileTree

/-- The enabled valid documents of a tree, in the order of the visit. -/
def policies (tree : FileTree) : List (FilePath × Policy) :=
  tree.candidates.filterMap fun c => c.2.policy?.map fun p => (c.1, p)

theorem mem_policies_iff_candidate (tree : FileTree) (path : FilePath) (p : Policy) :
    (path, p) ∈ tree.policies ↔ ∃ c, (path, c) ∈ tree.candidates ∧ c.policy? = some p := by
  rw [policies, List.mem_filterMap]
  constructor
  · rintro ⟨⟨path', c⟩, hmem, h⟩
    obtain ⟨q, hq, heq⟩ := Option.map_eq_some_iff.mp h
    cases heq
    exact ⟨c, hmem, hq⟩
  · rintro ⟨c, hmem, hq⟩
    exact ⟨(path, c), hmem, by rw [hq]; rfl⟩

theorem mem_policies_iff (tree : FileTree) (path : FilePath) (p : Policy) :
    (path, p) ∈ tree.policies ↔ tree.Holds path p := by
  rw [mem_policies_iff_candidate]
  cases tree with
  | file text =>
    rw [candidates]
    constructor
    · rintro ⟨c, hmem, hq⟩
      cases List.mem_singleton.mp hmem
      obtain ⟨henabled, t, rfl, hparse⟩ := (Candidate.policy?_ofText text p).mp hq
      have hroot : ∀ name ∈ ([] : FilePath).getLast?,
          isHiddenName name = false ∧ isYamlName name = true := by
        intro name hname
        cases hname
      exact ⟨hroot, henabled, t, List.mem_singleton_self _, hparse⟩
    · rintro ⟨-, henabled, t, hmem, hparse⟩
      rw [files] at hmem
      cases List.mem_singleton.mp hmem
      exact ⟨_, List.mem_singleton_self _,
        (Candidate.policy?_ofText _ p).mpr ⟨henabled, t, rfl, hparse⟩⟩
  | folder entries =>
    have last : ∀ text, (path, text) ∈ (FileTree.folder entries).files →
        path.getLast? = some (path.getLast?.getD "") := by
      intro text hmem
      rw [files] at hmem
      obtain ⟨name, below, rfl⟩ := fst_of_mem_filesIn hmem
      rw [List.getLast?_cons]
      rfl
    rw [candidates]
    constructor
    · rintro ⟨c, hmem, hq⟩
      obtain ⟨⟨path', text⟩, hf, heq⟩ := List.mem_map.mp hmem
      cases heq
      have hfile := (visited_perm _).mem_iff.mp hf
      obtain ⟨hname, hq⟩ := (Candidate.policy?_ofFile path' text p).mp hq
      obtain ⟨henabled, t, rfl, hparse⟩ := (Candidate.policy?_ofText text p).mp hq
      refine ⟨fun name hlast => ?_, henabled, t, hfile, hparse⟩
      rw [last _ hfile] at hlast
      cases hlast
      exact hname
    · rintro ⟨hname, henabled, t, hfile, hparse⟩
      refine ⟨_, List.mem_map.mpr ⟨_, (visited_perm _).mem_iff.mpr hfile, rfl⟩, ?_⟩
      refine (Candidate.policy?_ofFile path _ p).mpr ⟨hname _ (last _ hfile), ?_⟩
      exact (Candidate.policy?_ofText _ p).mpr ⟨henabled, t, rfl, hparse⟩

theorem policies_increasing {tree : FileTree} (h : tree.Distinct) : Increasing tree.policies := by
  refine List.pairwise_filterMap.mpr ((candidates_increasing h).imp fun hlt d hd e he => ?_)
  obtain ⟨p, -, rfl⟩ := Option.map_eq_some_iff.mp hd
  obtain ⟨q, -, rfl⟩ := Option.map_eq_some_iff.mp he
  exact hlt

end FileTree

end AccessFilter
