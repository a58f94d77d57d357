import AccessFilter.Proofs.Policy.Reload
import AccessFilter.Proofs.Policy.Documents

/-!
# What holds of the documents kept at any time

A document is kept only when it is in force and no document under another path has its identifier,
and it takes the place of what its own path had. So no identifier is ever kept twice.

* `Policy.InForce`           enabled, of the proper kind and with an identifier;
* `Consistent docs`          paths increase, identifiers differ, and all documents are in force;
* `Consistent.keep`          keeping a document with a free identifier preserves this;
* `PolicyFolder.offerAll_consistent`   so does a visit, when all documents it meets are in force.
-/

namespace AccessFilter

/-! ## documents in force -/

structure Policy.InForce (p : Policy) : Prop where
  enabled : p.metadata.enabled = true
  kind : p.kind = policyKind
  named : p.metadata.id ≠ ""

theorem Policy.check_eq_ok_iff (p q : Policy) :
    p.check = .ok q ↔ p.kind = policyKind ∧ p.metadata.id ≠ "" ∧ p = q := by
  rw [check]
  split_ifs with hkind hid
  · simp [hkind]
  · simp [String.isEmpty_iff.mp hid]
  · have hne : p.metadata.id ≠ "" := fun h => hid (String.isEmpty_iff.mpr h)
    simp [not_not.mp hkind, hne]

theorem Policy.checked_of_parse {text : String} {p : Policy} (h : Policy.parse text = .ok p) :
    p.kind = policyKind ∧ p.metadata.id ≠ "" := by
  unfold parse at h
  -- how the text is read does not matter here
  generalize Yaml.decode ofNode text = read at h
  cases read with
  | error e => cases h
  | ok q =>
    have hcheck : q.check = .ok p := by
      cases hq : q.check with
      | error e =>
        simp only [hq] at h
        cases h
      | ok r =>
        simp only [hq] at h
        cases h
        rfl
    obtain ⟨hkind, hid, rfl⟩ := (q.check_eq_ok_iff p).mp hcheck
    exact ⟨hkind, hid⟩

theorem FileTree.Holds.inForce {tree : FileTree} {path : FilePath} {p : Policy}
    (h : tree.Holds path p) : p.InForce := by
  obtain ⟨text, -, hparse⟩ := h.valid
  obtain ⟨hkind, hid⟩ := Policy.checked_of_parse hparse
  exact ⟨h.enabled, hkind, hid⟩

theorem FileTree.holds_of_candidate {tree : FileTree} {path : FilePath} {p : Policy}
    (h : (path, .document p) ∈ tree.candidates) : tree.Holds path p := by
  rw [← FileTree.mem_policies_iff, FileTree.mem_policies_iff_candidate]
  exact ⟨.document p, h, rfl⟩

theorem FileTree.Holds.candidate {tree : FileTree} {path : FilePath} {p : Policy}
    (h : tree.Holds path p) : (path, .document p) ∈ tree.candidates := by
  rw [← FileTree.mem_policies_iff, FileTree.mem_policies_iff_candidate] at h
  obtain ⟨c, hc, hp⟩ := h
  cases c with
  | document q =>
    cases hp
    exact hc
  | _ => cases hp

/-! ## consistent documents -/

/-- What always holds of the documents kept. -/
structure Consistent (docs : List (FilePath × Policy)) : Prop where
  increasing : Increasing docs
  distinct : ∀ d ∈ docs, ∀ e ∈ docs, d.2.metadata.id = e.2.metadata.id → d = e
  inForce : ∀ d ∈ docs, d.2.InForce

namespace Consistent

variable {docs : List (FilePath × Policy)}

theorem nil : Consistent [] := ⟨List.Pairwise.nil, nofun, nofun⟩

theorem keep (h : Consistent docs) {path : FilePath} {p : Policy} (hp : p.InForce)
    (free : ∀ d ∈ docs, d.2.metadata.id = p.metadata.id → d.1 = path) :
    Consistent (keepDocument path p docs) := by
  have hmem := h.increasing.mem_keepDocument_iff path p
  refine ⟨keepDocument_increasing path p h.increasing, fun d hd e he hid => ?_, fun d hd => ?_⟩
  · rcases (hmem d).mp hd with rfl | ⟨hd, hdp⟩ <;> rcases (hmem e).mp he with rfl | ⟨he, hep⟩
    · rfl
    · exact absurd (free e he hid.symm) hep
    · exact absurd (free d hd hid) hdp
    · exact h.distinct d hd e he hid
  · rcases (hmem d).mp hd with rfl | ⟨hd, -⟩
    · exact hp
    · exact h.inForce d hd

end Consistent

namespace PolicyFolder

theorem offer_consistent {folder : PolicyFolder} (h : Consistent folder.documents)
    (path : FilePath) {c : Candidate} (hc : ∀ p, c = .document p → p.InForce) :
    Consistent (folder.offer path c).2.documents := by
  rcases folder.offer_cases path c with ⟨ho, -⟩ | ⟨p, hcp, hfree, ho⟩ <;> rw [ho]
  · exact h
  · exact h.keep (hc p hcp) hfree

theorem offerAll_consistent {folder : PolicyFolder} (h : Consistent folder.documents)
    {cs : List (FilePath × Candidate)} (hcs : ∀ path p, (path, .document p) ∈ cs → p.InForce) :
    Consistent (folder.offerAll cs).2.documents := by
  induction cs generalizing folder with
  | nil => exact h
  | cons c rest ih =>
    have hc : ∀ p, c.2 = .document p → p.InForce := by
      rintro p hp
      exact hcs c.1 p (hp ▸ List.mem_cons_self)
    exact ih (offer_consistent h c.1 hc) fun path p hp => hcs path p (List.mem_cons_of_mem _ hp)

end PolicyFolder

end AccessFilter
