import AccessFilter.Proofs.Sql.Numbering
import AccessFilter.Proofs.Value.Fields
import AccessFilter.Sql.Evaluate
import Mathlib.Data.List.Basic

/-!
# The columns a predicate reads

The columns are collected from the leaves, each at its first occurrence. Nothing but the cells of these
columns is read, by name: a row may have other fields, in any order, and a null cell may as well be
missing.

* `Predicate.occurrences`   the columns of the leaves from left to right, with repetitions;
* `FirstsOf l fs`           `fs` has the members of `l`, in the order of their first occurrence;
* `columns_firstsOf`        the columns of a predicate are the firsts of its occurrences;
* `evaluate_congr_of_cells`   rows with the same cells in these columns give the same truth;
* `cell_filter_names`, `cell_perm`, `cell_filter_present`   what may be done to a row;
* `columns_exact`           the columns are exactly what evaluation reads.
-/

namespace AccessFilter

/-! ## first occurrences -/

/-- Each member once, the one that occurs first before the others. -/
structure FirstsOf (l fs : List Column) : Prop where
  mem : ∀ c, c ∈ fs ↔ c ∈ l
  ordered : fs.Pairwise fun c d => l.idxOf c < l.idxOf d

namespace FirstsOf

variable {l fs : List Column}

theorem nil : FirstsOf [] [] := ⟨fun _ => Iff.rfl, .nil⟩

theorem nodup (h : FirstsOf l fs) : fs.Nodup := by
  refine List.Pairwise.imp ?_ h.ordered
  intro c d hlt heq
  rw [heq] at hlt
  exact Nat.lt_irrefl _ hlt

/-- One occurrence more: a new column goes behind the others, a known one changes nothing. -/
theorem addColumn (h : FirstsOf l fs) (c : Column) :
    FirstsOf (l ++ [c]) (Predicate.addColumn fs c) := by
  have hfirst : ∀ d ∈ fs, (l ++ [c]).idxOf d = l.idxOf d := fun d hd =>
    List.idxOf_append_of_mem ((h.mem d).mp hd)
  have hordered : fs.Pairwise fun d e => (l ++ [c]).idxOf d < (l ++ [c]).idxOf e := by
    refine h.ordered.imp_of_mem fun {d e} hd he hlt => ?_
    rwa [hfirst d hd, hfirst e he]
  unfold Predicate.addColumn
  by_cases hc : c ∈ fs
  · rw [if_pos hc]
    refine ⟨fun d => ?_, hordered⟩
    rw [List.mem_append, List.mem_singleton, h.mem d]
    refine ⟨.inl, fun hd => hd.elim id fun heq => ?_⟩
    exact heq ▸ (h.mem c).mp hc
  · rw [if_neg hc]
    refine ⟨fun d => ?_, List.pairwise_append.mpr ⟨hordered, List.pairwise_singleton _ _, ?_⟩⟩
    · rw [List.mem_append, List.mem_append, h.mem d]
    · intro d hd e he
      rw [List.mem_singleton.mp he, hfirst d hd,
        List.idxOf_append_of_notMem fun hmem => hc ((h.mem c).mpr hmem)]
      have hlt : l.idxOf d < l.length := List.idxOf_lt_length_of_mem ((h.mem d).mp hd)
      omega

theorem foldl_addColumn (h : FirstsOf l fs) (rest : List Column) :
    FirstsOf (l ++ rest) (rest.foldl Predicate.addColumn fs) := by
  induction rest generalizing l fs with
  | nil => simpa using h
  | cons c rest ih =>
    have happend : l ++ c :: rest = (l ++ [c]) ++ rest := by simp
    rw [happend, List.foldl_cons]
    exact ih (h.addColumn c)

end FirstsOf

/-! ## the columns of the leaves -/

namespace Predicate

/-- The column that a leaf tests. -/
def ownColumn? : Predicate → Option Column
  | .compare c _ _ => some c
  | .isNull c _ => some c
  | .inList c _ => some c
  | _ => none

/-- The columns of the leaves from left to right, with repetitions. -/
def occurrences (p : Predicate) : List Column := p.leaves.filterMap ownColumn?

def occurrencesAll (ps : List Predicate) : List Column := (leavesAll ps).filterMap ownColumn?

theorem occurrencesAll_cons (p : Predicate) (ps : List Predicate) :
    occurrencesAll (p :: ps) = p.occurrences ++ occurrencesAll ps := by
  unfold occurrencesAll occurrences
  rw [leavesAll, List.filterMap_append]

mutual

/-- Collecting columns goes through their occurrences from left to right. -/
theorem columnsAfter_eq (seen : List Column) :
    (p : Predicate) → columnsAfter seen p = p.occurrences.foldl addColumn seen
  | .const _ => rfl
  | .compare _ _ _ => rfl
  | .isNull _ _ => rfl
  | .inList _ _ => rfl
  | .and parts => by
    show columnsAfterAll seen parts = (occurrencesAll parts).foldl addColumn seen
    exact columnsAfterAll_eq seen parts
  | .or parts => by
    show columnsAfterAll seen parts = (occurrencesAll parts).foldl addColumn seen
    exact columnsAfterAll_eq seen parts
  | .not inner => columnsAfter_eq seen inner

theorem columnsAfterAll_eq (seen : List Column) :
    (ps : List Predicate) → columnsAfterAll seen ps = (occurrencesAll ps).foldl addColumn seen
  | [] => rfl
  | p :: ps => by
    rw [columnsAfterAll, columnsAfter_eq seen p, columnsAfterAll_eq _ ps, occurrencesAll_cons,
      List.foldl_append]

end

theorem columns_firstsOf (p : Predicate) : FirstsOf p.occurrences p.columns := by
  unfold columns
  rw [columnsAfter_eq]
  exact FirstsOf.nil.foldl_addColumn p.occurrences

/-! ## what evaluation reads -/

section
variable {row row' : Row}

mutual

/-- Parts that evaluation does not get to are no exception: nothing is asked of them. -/
theorem evaluate_congr_of_occurrences : (p : Predicate) →
    (∀ c ∈ p.occurrences, row.cell c.name = row'.cell c.name) → p.evaluate row = p.evaluate row'
  | .const _, _ => rfl
  | .compare c op v, h => by rw [evaluate, evaluate, h c List.mem_cons_self]
  | .isNull c negated, h => by rw [evaluate, evaluate, h c List.mem_cons_self]
  | .inList c vs, h => by rw [evaluate, evaluate, h c List.mem_cons_self]
  | .and parts, h => by
    rw [evaluate_and, evaluate_and, (evaluateGroups_congr_of_occurrences parts h).1]
  | .or parts, h => by
    rw [evaluate_or, evaluate_or, (evaluateGroups_congr_of_occurrences parts h).2]
  | .not inner, h => by rw [evaluate, evaluate, evaluate_congr_of_occurrences inner h]

theorem evaluateGroups_congr_of_occurrences : (ps : List Predicate) →
    (∀ c ∈ occurrencesAll ps, row.cell c.name = row'.cell c.name) →
    evaluateAll row ps = evaluateAll row' ps ∧ evaluateAny row ps = evaluateAny row' ps
  | [], _ => ⟨rfl, rfl⟩
  | p :: ps, h => by
    rw [occurrencesAll_cons, List.forall_mem_append] at h
    obtain ⟨hall, hany⟩ := evaluateGroups_congr_of_occurrences ps h.2
    rw [evaluateAll_cons, evaluateAll_cons, evaluateAny_cons, evaluateAny_cons,
      evaluate_congr_of_occurrences p h.1, hall, hany]
    exact ⟨rfl, rfl⟩

end

theorem evaluate_congr_of_cells (p : Predicate)
    (h : ∀ c ∈ p.columns, row.cell c.name = row'.cell c.name) :
    p.evaluate row = p.evaluate row' :=
  evaluate_congr_of_occurrences p fun c hc => h c ((columns_firstsOf p).mem c |>.mpr hc)

end

end Predicate

/-! ## what may be done to a row -/

namespace Row

theorem cell_filter_names (row : Row) (keep : String → Bool) {name : String}
    (h : keep name = true) : Row.cell (row.filter fun f => keep f.1) name = row.cell name := by
  have hfind : Fields.find? name (row.filter fun f => keep f.1) = Fields.find? name row := by
    induction row with
    | nil => rfl
    | cons f row ih =>
      obtain ⟨k, v⟩ := f
      by_cases hk : k = name
      · subst hk
        rw [List.filter_cons, if_pos h, Fields.find?, Fields.find?, if_pos rfl, if_pos rfl]
      · rw [Fields.find?, if_neg hk, ← ih, List.filter_cons]
        split
        · rw [Fields.find?, if_neg hk]
        · rfl
  unfold Row.cell
  rw [hfind]

theorem cell_perm {row row' : Row} (nodup : (Fields.keys row).Nodup) (h : row.Perm row')
    (name : String) : row.cell name = row'.cell name := by
  unfold Row.cell
  rw [Fields.find?_perm nodup h]

theorem cell_filter_present {row : Row} (nodup : (Fields.keys row).Nodup) (name : String) :
    Row.cell (row.filter fun f => !f.2.isNull) name = row.cell name := by
  have nodup' : (Fields.keys (row.filter fun f => !f.2.isNull)).Nodup :=
    nodup.sublist (List.filter_sublist.map _)
  unfold Row.cell
  cases h : Fields.find? name row with
  | none =>
    have hnot : name ∉ Fields.keys (row.filter fun f => !f.2.isNull) := fun hmem =>
      (Fields.find?_eq_none_iff name row).mp h ((List.filter_sublist.map _).subset hmem)
    rw [(Fields.find?_eq_none_iff name _).mpr hnot]
  | some v =>
    have hmem : (name, v) ∈ row := (Fields.find?_eq_some_iff nodup name v).mp h
    cases hv : v.isNull with
    | false =>
      have hkept : (name, v) ∈ row.filter fun f => !f.2.isNull :=
        List.mem_filter.mpr ⟨hmem, by simp [hv]⟩
      rw [(Fields.find?_eq_some_iff nodup' name v).mpr hkept]
    | true =>
      -- the name stands once, so without its null cell it is not found
      have hnone : Fields.find? name (row.filter fun f => !f.2.isNull) = none := by
        apply Option.eq_none_iff_forall_ne_some.mpr
        intro w hw
        obtain ⟨hw', hnull⟩ := List.mem_filter.mp ((Fields.find?_eq_some_iff nodup' name w).mp hw)
        have hsame : some v = some w := h.symm.trans ((Fields.find?_eq_some_iff nodup name w).mpr hw')
        cases hsame
        simp [hv] at hnull
      rw [hnone]
      cases v <;> first | rfl | cases hv

end Row

namespace Predicate

/-- **The columns of a predicate are exactly what evaluation reads.** They are the columns of its
leaves, each once, in the order of their first occurrence. Rows with the same cells under the names of
these columns give the same truth, a missing cell being null; so neither other fields nor the order of
the fields nor a null cell that is left out makes a difference. -/
theorem columns_exact (p : Predicate) :
    (∀ c, c ∈ p.columns ↔ ∃ leaf ∈ p.leaves, leaf.ownColumn? = some c) ∧
    p.columns.Nodup ∧
    (p.columns.Pairwise fun c d => p.occurrences.idxOf c < p.occurrences.idxOf d) ∧
    (∀ row row' : Row, (∀ c ∈ p.columns, row.cell c.name = row'.cell c.name) →
      p.evaluate row = p.evaluate row') ∧
    (∀ row : Row, p.evaluate (row.filter fun f => p.columns.any fun c => c.name == f.1)
      = p.evaluate row) ∧
    (∀ row row' : Row, (Fields.keys row).Nodup → row.Perm row' →
      p.evaluate row = p.evaluate row') ∧
    ∀ row : Row, (Fields.keys row).Nodup →
      p.evaluate (row.filter fun f => !f.2.isNull) = p.evaluate row := by
  have hfirst := columns_firstsOf p
  refine ⟨fun c => ?_, hfirst.nodup, hfirst.ordered, fun _ _ h => evaluate_congr_of_cells p h,
    fun row => ?_, fun row row' nodup hperm => ?_, fun row nodup => ?_⟩
  · rw [hfirst.mem, occurrences, List.mem_filterMap]
  · apply evaluate_congr_of_cells
    intro c hc
    apply Row.cell_filter_names row (fun name => p.columns.any fun c => c.name == name)
    exact List.any_eq_true.mpr ⟨c, hc, beq_self_eq_true c.name⟩
  · apply evaluate_congr_of_cells
    intro c _
    exact Row.cell_perm nodup hperm c.name
  · apply evaluate_congr_of_cells
    intro c _
    exact Row.cell_filter_present nodup c.name

/-- Two tables have a column of one name, which is read once for both. The second row has its fields
in another order, a field more and no field for the null cell. -/
theorem columns_exact_shared :
    let p : Predicate := .or [.compare ⟨"sites", "owner"⟩ .eq (.string "u1"),
      .not (.and [.isNull ⟨"pages", "owner"⟩ false, .inList ⟨"sites", "rank"⟩ [.null],
        .compare ⟨"sites", "owner"⟩ .gt (.string "a")])]
    let row : Row := [("owner", .string "u2"), ("rank", .null)]
    let row' : Row := [("views", .bool true), ("owner", .string "u2")]
    p.columns = [⟨"sites", "owner"⟩, ⟨"pages", "owner"⟩, ⟨"sites", "rank"⟩] ∧
      (∀ c ∈ p.columns, row.cell c.name = row'.cell c.name) ∧ p.evaluate row = p.evaluate row' ∧
      (Fields.keys row).Nodup ∧ p.evaluate row.reverse = p.evaluate row ∧
      p.evaluate [("owner", .string "u2")] = p.evaluate row := by
  intro p row row'
  obtain ⟨-, -, -, hcells, -, hperm, hnull⟩ := columns_exact p
  have hcolumns : p.columns = [⟨"sites", "owner"⟩, ⟨"pages", "owner"⟩, ⟨"sites", "rank"⟩] := by
    decide
  have hsame : ∀ c ∈ p.columns, row.cell c.name = row'.cell c.name := by
    rw [hcolumns]
    simp only [List.forall_mem_cons]
    exact ⟨rfl, rfl, rfl, by simp⟩
  have nodup : (Fields.keys row).Nodup := by decide
  exact ⟨hcolumns, hsame, hcells row row' hsame, nodup,
    (hperm row row.reverse nodup (List.reverse_perm row).symm).symm, hnull row nodup⟩

end Predicate

end AccessFilter
