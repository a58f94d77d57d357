import AccessFilter.Proofs.Policy.Candidate

/-!
# Loading again

A folder drops no document: what it kept stays under its path until a file there is loaded again,
and until then its identifier is taken. So a load does what a first load would do exactly when
nothing is left over and nothing left over stands in the way of a file visited before it.

* `PolicyFolder.perform_cases`   a call, broken off or not, as a visit of candidates;
* `PolicyFolder.after`           the folder after a run of calls;
* `Overlays kept fresh held`   `held` has the documents of `fresh`, and left over of `kept` those
                               under paths where `fresh` has none;
* `Overlays.offer`, `offerAll_eq_of_overlays`   what a candidate, and several, do to the two;
* `loadAll_after_eq_fresh_iff`   when a load does what a first load does.
-/

namespace AccessFilter

namespace PolicyFolder

/-! ## one call -/

theorem loadAll_eq_ok_iff (folder : PolicyFolder) (disk : Disk)
    (out : List LoadResult × PolicyFolder) :
    folder.loadAll disk = .ok out ↔
      ∃ tree, disk folder.root = .ok tree ∧ folder.offerAll tree.candidates = out := by
  rw [loadAll_eq, map_eq_ok_iff]
  simp only [loadTree_eq_offerAll]

/-- **A call judges candidates below its root**, up to where it breaks off, if it does. -/
theorem perform_cases (folder : PolicyFolder) (call : Call) : ∃ cs broken,
    folder.perform call = .ofResults (folder.offerAll cs).1 broken (folder.offerAll cs).2 ∧
    ∀ c ∈ cs, ∃ tree, call.disk folder.root = .ok tree ∧ c ∈ tree.candidates := by
  rw [perform]
  cases call.disk folder.root with
  | error e => exact ⟨[], some e, rfl, fun c hc => absurd hc List.not_mem_nil⟩
  | ok tree =>
    cases tree with
    | file text =>
      refine ⟨[([], .ofText text)], none, ?_, fun c hc => ⟨_, rfl, hc⟩⟩
      simp only [load_eq_offer]
      rfl
    | folder entries =>
      cases call.barred [] with
      | some e => exact ⟨[], some e, rfl, fun c hc => absurd hc List.not_mem_nil⟩
      | none =>
        obtain ⟨fs, broken, hscan, hprefix, -⟩ := scan_cases call.barred
          (FileTree.folder entries).sorted.entries folder []
        rw [visitAll_eq_offerAll] at hscan
        refine ⟨fs.map fun f => (f.1, .ofFile f.1 f.2), broken, by simp only [hscan],
          fun c hc => ⟨_, rfl, ?_⟩⟩
        obtain ⟨f, hf, rfl⟩ := List.mem_map.mp hc
        have hvisited := hprefix.subset hf
        rw [below_nil] at hvisited
        exact List.mem_map_of_mem hvisited

/-! ## a run of calls -/

/-- The folder after a run of calls. -/
def after (folder : PolicyFolder) : List Call → PolicyFolder
  | [] => folder
  | call :: rest => (folder.perform call).folder.after rest

theorem perform_root (folder : PolicyFolder) (call : Call) :
    (folder.perform call).folder.root = folder.root := by
  obtain ⟨cs, broken, h, -⟩ := folder.perform_cases call
  rw [h]
  exact folder.offerAll_root cs

theorem perform_increasing {folder : PolicyFolder} (h : Increasing folder.documents) (call : Call) :
    Increasing (folder.perform call).folder.documents := by
  obtain ⟨cs, broken, hcs, -⟩ := folder.perform_cases call
  rw [hcs]
  exact offerAll_increasing h cs

theorem after_root (folder : PolicyFolder) (calls : List Call) :
    (folder.after calls).root = folder.root := by
  induction calls generalizing folder with
  | nil => rfl
  | cons call rest ih => exact (ih _).trans (folder.perform_root call)

theorem after_increasing {folder : PolicyFolder} (h : Increasing folder.documents)
    (calls : List Call) : Increasing (folder.after calls).documents := by
  induction calls generalizing folder with
  | nil => exact h
  | cons call rest ih => exact ih (perform_increasing h call)

/-! ## nothing is dropped -/

theorem exists_kept_offer {folder : PolicyFolder} {d : FilePath × Policy}
    (hd : d ∈ folder.documents) (path : FilePath) (c : Candidate) :
    ∃ e ∈ (folder.offer path c).2.documents, e.1 = d.1 := by
  rcases folder.offer_cases path c with ⟨h, -⟩ | ⟨p, -, -, h⟩ <;> rw [h]
  · exact ⟨d, hd, rfl⟩
  · by_cases hp : d.1 = path
    · exact ⟨(path, p), mem_keepDocument_self path p _, hp.symm⟩
    · exact ⟨d, mem_keepDocument_of_ne p _ hd hp, rfl⟩

theorem exists_kept_offerAll {folder : PolicyFolder} {d : FilePath × Policy}
    (hd : d ∈ folder.documents) (cs : List (FilePath × Candidate)) :
    ∃ e ∈ (folder.offerAll cs).2.documents, e.1 = d.1 := by
  induction cs generalizing folder d with
  | nil => exact ⟨d, hd, rfl⟩
  | cons c rest ih =>
    obtain ⟨e, he, hpe⟩ := exists_kept_offer hd c.1 c.2
    obtain ⟨e', he', hpe'⟩ := ih he
    exact ⟨e', he', hpe'.trans hpe⟩

/-- A document was there before, or it was loaded. -/
theorem mem_or_loaded_of_mem_offerAll {folder : PolicyFolder} {cs : List (FilePath × Candidate)}
    {d : FilePath × Policy} (hd : d ∈ (folder.offerAll cs).2.documents) :
    d ∈ folder.documents ∨
      ⟨d.1, .loaded d.2.metadata.id d.2.rules.length⟩ ∈ (folder.offerAll cs).1 := by
  induction cs generalizing folder with
  | nil => exact Or.inl hd
  | cons c rest ih =>
    rcases ih hd with hd | hr
    · rcases folder.offer_cases c.1 c.2 with ⟨h, -⟩ | ⟨p, -, -, h⟩ <;> rw [h] at hd
      · exact Or.inl hd
      · rcases eq_or_mem_of_mem_keepDocument _ hd with rfl | hd
        · refine Or.inr ?_
          rw [offerAll, h]
          exact List.mem_cons_self
        · exact Or.inl hd
    · exact Or.inr (List.mem_cons_of_mem _ hr)

/-- What is kept stands in the way: a file with its identifier is loaded only at its path or behind
it, where the document there may have been replaced. -/
theorem path_le_of_loaded {folder : PolicyFolder} {cs : List (FilePath × Candidate)}
    (ho : cs.Pairwise fun a b => a.1 ≤ b.1) {d : FilePath × Policy} (hd : d ∈ folder.documents)
    {path : FilePath} {rules : Nat}
    (hr : ⟨path, .loaded d.2.metadata.id rules⟩ ∈ (folder.offerAll cs).1) : d.1 ≤ path := by
  induction cs generalizing folder with
  | nil => cases hr
  | cons c rest ih =>
    obtain ⟨hfirst, hrest⟩ := List.pairwise_cons.mp ho
    rcases List.mem_cons.mp hr with heq | hr
    · injection heq with hpath hstatus
      rcases folder.offer_cases c.1 c.2 with ⟨-, h⟩ | ⟨p, -, hfree, h⟩
      · exact absurd hstatus.symm (h _ _)
      · rw [h] at hstatus
        injection hstatus with hid
        exact (hfree d hd hid).trans hpath.symm |>.le
    · obtain ⟨c', hc', hpath⟩ := exists_candidate_of_mem_offerAll hr
      have hle : c.1 ≤ path := (hfirst c' hc').trans hpath.le
      -- only a document under the path of `c` can have given way
      by_cases hp : d.1 = c.1
      · exact hp.le.trans hle
      · refine ih hrest ?_ hr
        rcases folder.offer_cases c.1 c.2 with ⟨h, -⟩ | ⟨p, -, -, h⟩ <;> rw [h]
        · exact hd
        · exact mem_keepDocument_of_ne p _ hd hp

/-! ## what is left over -/

/-- Two folders in the same visit: `held` has the documents of `fresh`, and those of `kept` under
paths where `fresh` has none. -/
structure Overlays (kept : List (FilePath × Policy)) (fresh held : PolicyFolder) : Prop where
  root : held.root = fresh.root
  increasing : Increasing fresh.documents
  held_increasing : Increasing held.documents
  mem : ∀ d, d ∈ held.documents ↔
    d ∈ fresh.documents ∨ d ∈ kept ∧ ∀ e ∈ fresh.documents, e.1 ≠ d.1

namespace Overlays

variable {kept : List (FilePath × Policy)} {fresh held : PolicyFolder}

theorem keep (h : Overlays kept fresh held) (path : FilePath) (p : Policy) :
    Overlays kept { fresh with documents := keepDocument path p fresh.documents }
      { held with documents := keepDocument path p held.documents } := by
  refine ⟨h.root, keepDocument_increasing path p h.increasing,
    keepDocument_increasing path p h.held_increasing, fun d => ?_⟩
  simp only [h.held_increasing.mem_keepDocument_iff, h.increasing.mem_keepDocument_iff, h.mem]
  constructor
  · rintro (hd | ⟨hd | ⟨hd, hfree⟩, hp⟩)
    · exact Or.inl (Or.inl hd)
    · exact Or.inl (Or.inr ⟨hd, hp⟩)
    · refine Or.inr ⟨hd, fun e he => ?_⟩
      rcases he with rfl | ⟨he, -⟩
      · exact Ne.symm hp
      · exact hfree e he
  · rintro ((hd | ⟨hd, hp⟩) | ⟨hd, hfree⟩)
    · exact Or.inl hd
    · exact Or.inr ⟨Or.inl hd, hp⟩
    · have hp : d.1 ≠ path := Ne.symm (hfree (path, p) (Or.inl rfl))
      refine Or.inr ⟨Or.inr ⟨hd, fun e he => ?_⟩, hp⟩
      by_cases hpe : e.1 = path
      · exact fun heq => hp (heq.symm.trans hpe)
      · exact hfree e (Or.inr ⟨he, hpe⟩)

/-- The two folders find the same document in the way of `p`, when what is left over lies ahead and
the fresh folder loads nothing under an identifier that is left over further ahead. -/
theorem find?_eq (h : Overlays kept fresh held) {path : FilePath} {p : Policy}
    (past : ∀ e ∈ fresh.documents, e.1 ≤ path)
    (ahead : ∀ d ∈ kept, (∀ e ∈ fresh.documents, e.1 ≠ d.1) → path ≤ d.1)
    (free : ∀ d ∈ kept, ∀ rules,
      (fresh.offer path (.document p)).1 = .loaded d.2.metadata.id rules → d.1 ≤ path) :
    held.documents.find? (isTakenBy path p.metadata.id)
      = fresh.documents.find? (isTakenBy path p.metadata.id) := by
  cases hf : fresh.documents.find? (isTakenBy path p.metadata.id) with
  | some d =>
    obtain ⟨hd, ht, hmin⟩ := (h.increasing.find?_eq_some_iff _ d).mp hf
    refine (h.held_increasing.find?_eq_some_iff _ d).mpr
      ⟨(h.mem d).mpr (Or.inl hd), ht, fun e he hte => ?_⟩
    rcases (h.mem e).mp he with he | ⟨he, hleft⟩
    · exact hmin e he hte
    · exact not_lt.mpr ((past d hd).trans (ahead e he hleft))
  | none =>
    refine List.find?_eq_none.mpr fun e he hte => ?_
    rcases (h.mem e).mp he with he | ⟨he, hleft⟩
    · exact List.find?_eq_none.mp hf e he hte
    · obtain ⟨hp, hid⟩ := (isTakenBy_iff path _ e).mp hte
      have hload : (fresh.offer path (.document p)).1
          = .loaded e.2.metadata.id p.rules.length := by
        rw [offer, hf, hid]
      exact hp (le_antisymm (free e he _ hload) (ahead e he hleft))

theorem offer (h : Overlays kept fresh held) {path : FilePath} {c : Candidate}
    (past : ∀ e ∈ fresh.documents, e.1 ≤ path)
    (ahead : ∀ d ∈ kept, (∀ e ∈ fresh.documents, e.1 ≠ d.1) → path ≤ d.1)
    (free : ∀ d ∈ kept, ∀ rules,
      (fresh.offer path c).1 = .loaded d.2.metadata.id rules → d.1 ≤ path) :
    (held.offer path c).1 = (fresh.offer path c).1 ∧
      Overlays kept (fresh.offer path c).2 (held.offer path c).2 := by
  cases c with
  | passed reason => exact ⟨rfl, h⟩
  | faulty cause => exact ⟨rfl, h⟩
  | document p =>
    rw [PolicyFolder.offer, PolicyFolder.offer, h.find?_eq past ahead free]
    cases fresh.documents.find? (isTakenBy path p.metadata.id) with
    | some d =>
      refine ⟨?_, h⟩
      show LoadStatus.failed (.duplicate _ (pathText held.root d.1)) = _
      rw [h.root]
    | none => exact ⟨rfl, h.keep path p⟩

theorem eq_of_covered (h : Overlays kept fresh held)
    (covered : ∀ d ∈ kept, ¬ ∀ e ∈ fresh.documents, e.1 ≠ d.1) : held = fresh := by
  have hdocs : held.documents = fresh.documents := by
    refine h.held_increasing.ext h.increasing fun d => (h.mem d).trans ?_
    exact or_iff_left fun hd => covered d hd.1 hd.2
  have hroot := h.root
  cases held
  cases fresh
  cases hdocs
  cases hroot
  rfl

end Overlays

theorem exists_kept_of_loaded {folder : PolicyFolder} {path : FilePath} {c : Candidate}
    {id : String} {rules : Nat} (h : (folder.offer path c).1 = .loaded id rules) :
    ∃ e ∈ (folder.offer path c).2.documents, e.1 = path := by
  rcases folder.offer_cases path c with ⟨-, hne⟩ | ⟨p, -, -, ho⟩
  · exact absurd h (hne id rules)
  · rw [ho]
    exact ⟨(path, p), mem_keepDocument_self path p _, rfl⟩

/-- The visit of the rest: at its end nothing is left over. -/
theorem offerAll_eq_of_overlays {kept : List (FilePath × Policy)} {fresh held : PolicyFolder}
    {cs : List (FilePath × Candidate)} (ho : cs.Pairwise fun a b => a.1 ≤ b.1)
    (h : Overlays kept fresh held) (past : ∀ e ∈ fresh.documents, ∀ c ∈ cs, e.1 ≤ c.1)
    (loaded : ∀ d ∈ kept, (∀ e ∈ fresh.documents, e.1 ≠ d.1) →
      ∃ id rules, ⟨d.1, .loaded id rules⟩ ∈ (fresh.offerAll cs).1)
    (free : ∀ d ∈ kept, ∀ path rules,
      ⟨path, .loaded d.2.metadata.id rules⟩ ∈ (fresh.offerAll cs).1 → d.1 ≤ path) :
    held.offerAll cs = fresh.offerAll cs := by
  induction cs generalizing fresh held with
  | nil =>
    have heq : held = fresh := h.eq_of_covered fun d hd hleft => by
      obtain ⟨id, rules, hr⟩ := loaded d hd hleft
      cases hr
    rw [heq]
  | cons c rest ih =>
    obtain ⟨hfirst, hrest⟩ := List.pairwise_cons.mp ho
    -- what is left over is loaded by the rest of the visit, so no path before `c` has it
    have ahead : ∀ d ∈ kept, (∀ e ∈ fresh.documents, e.1 ≠ d.1) → c.1 ≤ d.1 := by
      intro d hd hleft
      obtain ⟨id, rules, hr⟩ := loaded d hd hleft
      obtain ⟨c', hc', hp⟩ := exists_candidate_of_mem_offerAll hr
      rcases List.mem_cons.mp hc' with rfl | hc'
      · exact hp.le
      · exact (hfirst c' hc').trans hp.le
    obtain ⟨hstatus, hnext⟩ := h.offer (fun e he => past e he c List.mem_cons_self) ahead
      fun d hd rules hs => free d hd c.1 rules (by rw [offerAll, hs]; exact List.mem_cons_self)
    have htail := ih hrest hnext ?_ ?_ fun d hd path rules hr =>
      free d hd path rules (List.mem_cons_of_mem _ hr)
    · rw [offerAll, offerAll, hstatus, htail]
    · intro e he c' hc'
      rcases fresh.offer_cases c.1 c.2 with ⟨hc, -⟩ | ⟨p, -, -, hc⟩ <;> rw [hc] at he
      · exact past e he c' (List.mem_cons_of_mem _ hc')
      · rcases eq_or_mem_of_mem_keepDocument _ he with rfl | he
        · exact hfirst c' hc'
        · exact past e he c' (List.mem_cons_of_mem _ hc')
    · intro d hd hleft
      obtain ⟨id, rules, hr⟩ := loaded d hd fun e he hp => by
        obtain ⟨e', he', hp'⟩ := exists_kept_offer he c.1 c.2
        exact hleft e' he' (hp'.trans hp)
      -- the result of `c` itself would have put a document under the path of `d`
      rcases List.mem_cons.mp hr with heq | hr
      · injection heq with hp hs
        obtain ⟨e, he, hpe⟩ := exists_kept_of_loaded hs.symm
        exact absurd (hpe.trans hp.symm) (hleft e he)
      · exact ⟨id, rules, hr⟩

/-! ## a call and a first call -/

def fresh (root : String) : PolicyFolder := { root }

theorem fresh_increasing (root : String) : Increasing (fresh root).documents := List.Pairwise.nil

theorem offerAll_eq_fresh_iff {held : PolicyFolder} (h : Increasing held.documents)
    {cs : List (FilePath × Candidate)} (ho : cs.Pairwise fun a b => a.1 ≤ b.1) :
    held.offerAll cs = (fresh held.root).offerAll cs ↔
      ∀ d ∈ held.documents,
        (∃ id rules, ⟨d.1, .loaded id rules⟩ ∈ ((fresh held.root).offerAll cs).1) ∧
        ∀ path rules, ⟨path, .loaded d.2.metadata.id rules⟩ ∈ ((fresh held.root).offerAll cs).1 →
          d.1 ≤ path := by
  constructor
  · intro heq d hd
    refine ⟨?_, fun path rules hr => path_le_of_loaded ho hd (heq.symm ▸ hr)⟩
    obtain ⟨e, he, hp⟩ := exists_kept_offerAll hd cs
    rw [heq] at he
    rcases mem_or_loaded_of_mem_offerAll he with he | hr
    · cases he
    · rw [hp] at hr
      exact ⟨_, _, hr⟩
  · intro hall
    have start : Overlays held.documents (fresh held.root) held := by
      refine ⟨rfl, fresh_increasing _, h, fun d => ?_⟩
      simp [fresh]
    exact offerAll_eq_of_overlays ho start (fun e he => nomatch he)
      (fun d hd _ => (hall d hd).1) fun d hd => (hall d hd).2

/-- **A load after other calls does what a first load does**, with the same results and documents,
exactly when every document kept before it stands where a first load loads a file, and a first load
loads no file with its identifier before it. -/
theorem loadAll_after_eq_fresh_iff (root : String) (calls : List Call) (disk : Disk)
    (distinct : ∀ tree, disk root = .ok tree → tree.Distinct)
    (results : List LoadResult) (next : PolicyFolder)
    (h : (fresh root).loadAll disk = .ok (results, next)) :
    ((fresh root).after calls).loadAll disk = .ok (results, next) ↔
      ∀ d ∈ ((fresh root).after calls).documents,
        (∃ id rules, ⟨d.1, .loaded id rules⟩ ∈ results) ∧
        ∀ path rules, ⟨path, .loaded d.2.metadata.id rules⟩ ∈ results → d.1 ≤ path := by
  obtain ⟨tree, htree, hout⟩ := (loadAll_eq_ok_iff _ disk _).mp h
  have hroot : ((fresh root).after calls).root = root := after_root _ calls
  have hheld : Increasing ((fresh root).after calls).documents :=
    after_increasing (fresh_increasing root) calls
  have hordered := FileTree.candidates_increasing (distinct tree htree)
  have hiff := offerAll_eq_fresh_iff hheld (hordered.imp fun hlt => hlt.le)
  rw [hroot, hout] at hiff
  rw [← hiff, loadAll_eq_ok_iff, hroot]
  constructor
  · rintro ⟨tree', htree', hout'⟩
    cases htree.symm.trans htree'
    exact hout'
  · exact fun hout' => ⟨tree, htree, hout'⟩

theorem after_loadAll (folder : PolicyFolder) (disk : Disk) {tree : FileTree}
    (h : disk folder.root = .ok tree) :
    folder.after [{ disk }] = (folder.offerAll tree.candidates).2 := by
  rw [after, folder.perform_of_listed disk h, loadTree_eq_offerAll]
  rfl

/-- A file is edited and another is added. -/
theorem loadAll_after_eq_fresh_iff_edited :
    let text (id : String) : Option String :=
      some ("apiVersion: v1\nkind: Policy\nmetadata:\n  id: " ++ id ++ "\n")
    let old : FileTree := .folder [("a.yml", .file (text "a"))]
    let new : FileTree := .folder [("a.yml", .file (text "c")), ("b.yml", .file (text "b"))]
    let disk (tree : FileTree) : Disk := FileTree.locate (.folder [("p", tree)])
    let held := (fresh "p").after [{ disk := disk old }]
    let results := ((fresh "p").offerAll new.candidates).1
    let next := ((fresh "p").offerAll new.candidates).2
    held.documents.map Prod.fst = [["a.yml"]] ∧
      (∀ tree, disk new "p" = .ok tree → tree.Distinct) ∧
      (fresh "p").loadAll (disk new) = .ok (results, next) ∧
      (held.loadAll (disk new) = .ok (results, next) ↔
        ∀ d ∈ held.documents, (∃ id rules, ⟨d.1, .loaded id rules⟩ ∈ results) ∧
          ∀ path rules, ⟨path, .loaded d.2.metadata.id rules⟩ ∈ results → d.1 ≤ path) := by
  intro text old new disk held results next
  have hheld : held = ((fresh "p").offerAll old.candidates).2 :=
    after_loadAll (fresh "p") (disk old) rfl
  have htop : (FileTree.folder [("p", new)]).Distinct := by
    simp [new, FileTree.Distinct, FileTree.DistinctIn, Fields.keys]
  have distinct : ∀ tree, disk new "p" = .ok tree → tree.Distinct :=
    fun _ h => FileTree.distinct_locate htop h
  have h : (fresh "p").loadAll (disk new) = .ok (results, next) :=
    (loadAll_eq_ok_iff _ (disk new) _).mpr ⟨new, rfl, rfl⟩
  refine ⟨?_, distinct, h, loadAll_after_eq_fresh_iff "p" [{ disk := disk old }] (disk new) distinct
    results next h⟩
  rw [hheld, FileTree.candidates_single]
  decide +kernel

/-- The only file is deleted: its rules stay. -/
theorem loadAll_keeps_deleted :
    let text := "apiVersion: v1\nkind: Policy\nmetadata:\n  id: a\n" ++
      "rules:\n  - action: read\n    subject: Site\n"
    let old : FileTree := .folder [("a.yml", .file (some text))]
    let disk (tree : FileTree) : Disk := FileTree.locate (.folder [("p", tree)])
    let held := (fresh "p").after [{ disk := disk old }]
    (fresh "p").loadAll (disk (.folder [])) = .ok ([], fresh "p") ∧
      held.loadAll (disk (.folder [])) = .ok ([], held) ∧
      (fresh "p").policySet.rules.length = 0 ∧ held.policySet.rules.length = 1 := by
  intro text old disk held
  have hheld : held = ((fresh "p").offerAll old.candidates).2 :=
    after_loadAll (fresh "p") (disk old) rfl
  refine ⟨?_, ?_, rfl, ?_⟩
  · exact (loadAll_eq_ok_iff _ _ _).mpr ⟨.folder [], rfl, by rw [FileTree.candidates_empty]; rfl⟩
  · refine (loadAll_eq_ok_iff _ _ _).mpr ⟨.folder [], ?_, by rw [FileTree.candidates_empty]; rfl⟩
    rw [hheld, offerAll_root]
    rfl
  · rw [hheld, FileTree.candidates_single]
    decide +kernel

end PolicyFolder

end AccessFilter
