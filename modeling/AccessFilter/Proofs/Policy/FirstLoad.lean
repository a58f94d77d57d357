import AccessFilter.Proofs.Policy.Reload
import AccessFilter.Proofs.Policy.Documents

/-!
# The first load of a tree

A visit in strictly increasing order keeps each document behind those kept before it. When no file
fails, nothing is in the way of any document, so all enabled valid documents are kept.

* `PolicyFolder.documents_offer_of_sound`      one candidate that does not fail;
* `PolicyFolder.documents_offerAll_of_sound`   several candidates, of which none fails;
* `PolicyFolder.documents_fresh_of_sound`      the documents after a first load without failure.
-/

namespace AccessFilter

/-- A document behind all others is kept at the end. -/
theorem keepDocument_of_lt {path : FilePath} (p : Policy) {docs : List (FilePath × Policy)}
    (h : ∀ d ∈ docs, d.1 < path) : keepDocument path p docs = docs ++ [(path, p)] := by
  induction docs with
  | nil => rfl
  | cons d rest ih =>
    obtain ⟨other, q⟩ := d
    obtain ⟨hlt, hrest⟩ := List.forall_mem_cons.mp h
    rw [keepDocument, if_neg hlt.asymm, if_neg hlt.ne', ih hrest, List.cons_append]

namespace PolicyFolder

theorem documents_offer_of_sound {folder : PolicyFolder} {path : FilePath} {c : Candidate}
    (behind : ∀ d ∈ folder.documents, d.1 < path)
    (sound : ∀ fault, (folder.offer path c).1 ≠ .failed fault) :
    (folder.offer path c).2.documents
      = folder.documents ++ (c.policy?.map fun p => (path, p)).toList := by
  cases c with
  | passed reason => exact (List.append_nil _).symm
  | faulty cause => exact absurd rfl (sound (.faulty cause))
  | document p =>
    rw [offer] at sound ⊢
    cases hfind : folder.documents.find? (isTakenBy path p.metadata.id) with
    | some d =>
      rw [hfind] at sound
      exact absurd rfl (sound _)
    | none => exact keepDocument_of_lt p behind

theorem documents_offerAll_of_sound {folder : PolicyFolder} {cs : List (FilePath × Candidate)}
    (ordered : cs.Pairwise fun a b => a.1 < b.1)
    (behind : ∀ d ∈ folder.documents, ∀ c ∈ cs, d.1 < c.1)
    (sound : ∀ r ∈ (folder.offerAll cs).1, ∀ fault, r.status ≠ .failed fault) :
    (folder.offerAll cs).2.documents
      = folder.documents ++ cs.filterMap fun c => c.2.policy?.map fun p => (c.1, p) := by
  induction cs generalizing folder with
  | nil => exact (List.append_nil _).symm
  | cons c rest ih =>
    obtain ⟨hfirst, hrest⟩ := List.pairwise_cons.mp ordered
    rw [offerAll] at sound
    obtain ⟨hc, hsound⟩ := List.forall_mem_cons.mp sound
    have hdocs := documents_offer_of_sound (fun d hd => behind d hd c List.mem_cons_self) hc
    -- what is kept stays before all that is still to come: `c` itself comes before the rest
    have hbehind : ∀ d ∈ (folder.offer c.1 c.2).2.documents, ∀ c' ∈ rest, d.1 < c'.1 := by
      intro d hd c' hc'
      rw [hdocs] at hd
      rcases List.mem_append.mp hd with hd | hd
      · exact behind d hd c' (List.mem_cons_of_mem _ hc')
      · obtain ⟨p, -, rfl⟩ := Option.map_eq_some_iff.mp (Option.mem_toList.mp hd)
        exact hfirst c' hc'
    rw [offerAll, ih hrest hbehind hsound, hdocs, List.append_assoc]
    congr 1
    cases h : c.2.policy? <;> simp [h]

/-- After a first load in which no file failed, all enabled valid documents are kept. -/
theorem documents_fresh_of_sound (root : String) {tree : FileTree} (distinct : tree.Distinct)
    (sound : ∀ r ∈ ((fresh root).loadTree tree).1, ∀ fault, r.status ≠ .failed fault) :
    ((fresh root).loadTree tree).2.documents = tree.policies := by
  rw [loadTree_eq_offerAll] at sound ⊢
  have behind : ∀ d ∈ (fresh root).documents, ∀ c ∈ tree.candidates, d.1 < c.1 := by
    intro d hd
    cases hd
  rw [documents_offerAll_of_sound (FileTree.candidates_increasing distinct) behind sound]
  rfl

end PolicyFolder

end AccessFilter
