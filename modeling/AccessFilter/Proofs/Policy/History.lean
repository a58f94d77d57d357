import AccessFilter.Proofs.Policy.Consistent

/-!
# Where the documents kept come from

Over a run of calls, between which the disk may change, the document of a path is the one that the
last call to report the path as loaded found there. No other status of a file touches a document. A
call reports what it loads in its log, as soon as it has loaded it, and in the results that it
returns. One that comes to a folder that is barred returns no results, so what it has loaded by then
it reports in its log only.

* `PolicyFolder.Logs`, `Returns`   the status that a call logs for a path, or returns;
* `PolicyFolder.steps`   the calls of a run with the folders then;
* `PolicyFolder.LoadedLast`   the last call to report a path as loaded, and the document it found;
* `mem_offerAll_cases`, `mem_perform_cases`, `loadedLast_of_mem`   one visit, one call, a run;
* `after_consistent_history`   what holds after every run.
-/

namespace AccessFilter

namespace PolicyFolder

/-! ## one visit -/

/-- What is kept after a visit was kept before and not loaded again, or the visit loaded it. -/
theorem mem_offerAll_cases {folder : PolicyFolder} (h : Increasing folder.documents)
    {cs : List (FilePath × Candidate)} {d : FilePath × Policy}
    (hd : d ∈ (folder.offerAll cs).2.documents) :
    (d ∈ folder.documents ∧ ∀ id rules, ⟨d.1, .loaded id rules⟩ ∉ (folder.offerAll cs).1) ∨
      ((d.1, .document d.2) ∈ cs ∧
        ⟨d.1, .loaded d.2.metadata.id d.2.rules.length⟩ ∈ (folder.offerAll cs).1) := by
  induction cs generalizing folder with
  | nil => exact Or.inl ⟨hd, fun _ _ => List.not_mem_nil⟩
  | cons c rest ih =>
    -- the rest of the visit may load the path again, so it is looked at before `c`
    rcases ih (offer_increasing h c.1 c.2) hd with ⟨hold, hnot⟩ | ⟨hc, hr⟩
    · rcases folder.offer_cases c.1 c.2 with ⟨ho, hstatus⟩ | ⟨p, hcp, -, ho⟩
      · rw [ho] at hold
        refine Or.inl ⟨hold, fun id rules hr => ?_⟩
        rcases List.mem_cons.mp hr with heq | hr
        · injection heq with _ hs
          exact hstatus id rules hs.symm
        · exact hnot id rules hr
      · rw [ho] at hold
        rcases (h.mem_keepDocument_iff c.1 p d).mp hold with rfl | ⟨hold, hne⟩
        · refine Or.inr ⟨?_, ?_⟩
          · rw [← hcp]
            exact List.mem_cons_self
          · rw [offerAll, ho]
            exact List.mem_cons_self
        · refine Or.inl ⟨hold, fun id rules hr => ?_⟩
          rcases List.mem_cons.mp hr with heq | hr
          · injection heq with hp _
            exact hne hp
          · exact hnot id rules hr
    · exact Or.inr ⟨List.mem_cons_of_mem _ hc, List.mem_cons_of_mem _ hr⟩

/-- What stands at a path below the root is a file that holds this document. -/
def Call.Finds (call : Call) (root : String) (path : FilePath) (p : Policy) : Prop :=
  ∃ tree text, call.disk root = .ok tree ∧ (path, some text) ∈ tree.files ∧
    Policy.parse text = .ok p

/-- No folder is barred to the call. -/
def Call.Lists (call : Call) : Prop := ∀ path, call.barred path = none

/-- The call logs this status for the path. -/
def Logs (folder : PolicyFolder) (call : Call) (path : FilePath) (status : LoadStatus) : Prop :=
  ⟨path, status⟩ ∈ (folder.perform call).log

/-- The call returns this status for the path. -/
def Returns (folder : PolicyFolder) (call : Call) (path : FilePath) (status : LoadStatus) : Prop :=
  ∃ results, (folder.perform call).returned = .ok results ∧ ⟨path, status⟩ ∈ results

/-- What is loaded is always logged. -/
theorem loaded_mem_log_iff (results : List LoadResult) (broken : Option FileError)
    (next : PolicyFolder) (path : FilePath) (id : String) (rules : Nat) :
    ⟨path, .loaded id rules⟩ ∈ (Performed.ofResults results broken next).log ↔
      ⟨path, .loaded id rules⟩ ∈ results :=
  List.mem_filter.trans (and_iff_left rfl)

/-- A call that returns results says the same in them. -/
theorem loaded_mem_returned_iff {folder : PolicyFolder} {call : Call} {results : List LoadResult}
    (h : (folder.perform call).returned = .ok results) (path : FilePath) (id : String) (rules : Nat) :
    ⟨path, .loaded id rules⟩ ∈ results ↔ folder.Logs call path (.loaded id rules) := by
  obtain ⟨cs, broken, heq, -⟩ := folder.perform_cases call
  rw [Logs, heq, loaded_mem_log_iff]
  rw [heq] at h
  cases broken with
  | some e => cases h
  | none => rw [Except.ok.inj h]

theorem Returns.logs {folder : PolicyFolder} {call : Call} {path : FilePath} {id : String}
    {rules : Nat} (h : folder.Returns call path (.loaded id rules)) :
    folder.Logs call path (.loaded id rules) := by
  obtain ⟨results, hresults, hmem⟩ := h
  exact (loaded_mem_returned_iff hresults path id rules).mp hmem

/-- Where no folder is barred, what is logged as loaded is returned. -/
theorem Logs.returns {folder : PolicyFolder} {call : Call} {path : FilePath} {id : String}
    {rules : Nat} (h : folder.Logs call path (.loaded id rules)) (listed : call.Lists) :
    folder.Returns call path (.loaded id rules) := by
  obtain ⟨disk, barred⟩ := call
  obtain rfl : barred = fun _ => none := funext listed
  cases htree : disk folder.root with
  | error e =>
    simp only [Logs, perform, htree, loaded_mem_log_iff] at h
    cases h
  | ok tree =>
    have hperform := folder.perform_of_listed disk htree
    rw [Logs, hperform, loaded_mem_log_iff] at h
    exact ⟨_, congrArg Performed.returned hperform, h⟩

/-- The calls of a run, each with the folder as it is then. -/
def steps (folder : PolicyFolder) : List Call → List (PolicyFolder × Call)
  | [] => []
  | call :: rest => (folder, call) :: (folder.perform call).folder.steps rest

theorem snd_of_mem_steps {folder : PolicyFolder} {calls : List Call} {step : PolicyFolder × Call}
    (h : step ∈ folder.steps calls) : step.2 ∈ calls := by
  induction calls generalizing folder with
  | nil => cases h
  | cons call rest ih =>
    rcases List.mem_cons.mp h with rfl | h
    · exact List.mem_cons_self
    · exact List.mem_cons_of_mem _ (ih h)

/-- The last call of a run that reports the path as loaded found this document there, and reported its
identifier and the number of its rules. -/
def LoadedLast (reports : PolicyFolder → Call → FilePath → LoadStatus → Prop)
    (folder : PolicyFolder) (calls : List Call) (path : FilePath) (p : Policy) : Prop :=
  ∃ before step behind, folder.steps calls = before ++ step :: behind ∧
    step.2.Finds step.1.root path p ∧
    reports step.1 step.2 path (.loaded p.metadata.id p.rules.length) ∧
    ∀ later ∈ behind, ∀ id rules, ¬ reports later.1 later.2 path (.loaded id rules)

/-- Where no folder is barred to any call, the results say what the log says. -/
theorem LoadedLast.returned {folder : PolicyFolder} {calls : List Call} {path : FilePath}
    {p : Policy} (h : LoadedLast Logs folder calls path p) (listed : ∀ call ∈ calls, call.Lists) :
    LoadedLast Returns folder calls path p := by
  obtain ⟨before, step, behind, hsteps, hfinds, hlogs, hlater⟩ := h
  have hstep : step ∈ folder.steps calls := by
    rw [hsteps]
    exact List.mem_append_right _ List.mem_cons_self
  exact ⟨before, step, behind, hsteps, hfinds, hlogs.returns (listed _ (snd_of_mem_steps hstep)),
    fun later hmem id rules h => hlater later hmem id rules h.logs⟩

end PolicyFolder

end AccessFilter
