import AccessFilter.Proofs.Filter.Fault
import AccessFilter.Proofs.Operator.Contents
import Mathlib.Data.List.Induction

/-!
# What a history leaves in a registry

Several registries are built side by side, each known by its place. An operation makes a new registry or
changes the one at its target, and it writes operators under some of the symbols there. What a registry
resolves is what the last operation wrote that wrote this symbol at this place.

* `Registry.Step`, `perform`, `run`   operations, and what a sequence of them builds;
* `Step.written?`           what an operation writes at a place under a symbol;
* `resolveAt_perform`       one operation: what it wrote wins over what was there;
* `resolveAt_run_eq_some_iff`   a whole history: the last one that wrote the symbol counts;
* `getElem?_run_append`     operations on other registries leave a registry as it is;
* `compile_unsupported_iff` the compiler rejects exactly the keys that are not registered;
* `run_contents`            what holds of every registry that is built.
-/

namespace AccessFilter

namespace Registry

/-- An operation on registries that are known by their places. -/
inductive Step where
  | standard
  | empty
  | clone (source : Nat)
  | comparisons (target : Nat)
  | register (target : Nat) (symbol : String) (op : Operator)
  | overlay (target source : Nat)

/-- The registries after an operation. A new one comes behind the others, and a refused symbol changes
nothing. -/
def perform (rs : List Registry) : Step → List Registry
  | .standard => rs ++ [standard]
  | .empty => rs ++ [empty]
  | .clone source => rs ++ rs[source]?.toList
  | .comparisons target => rs.modify target withComparisons
  | .register target symbol op => rs.modify target fun r => (r.register symbol op).toOption.getD r
  | .overlay target source => rs.modify target fun r => (rs[source]?.map r.overlay).getD r

/-- The registries that a sequence of operations builds. -/
def run (steps : List Step) : List Registry := steps.foldl perform []

theorem run_append (steps more : List Step) : run (steps ++ more) = more.foldl perform (run steps) :=
  List.foldl_append

/-! ## what an operation writes -/

def standardOperators : List (String × Operator) := [("$eq", .equals), ("$in", .oneOf)]

def comparisonOperators : List (String × Operator) :=
  [("$ne", .comparing .ne), ("$gt", .comparing .gt), ("$gte", .comparing .ge),
    ("$lt", .comparing .lt), ("$lte", .comparing .le), ("$nin", .notOneOf)]

def resolveAt (rs : List Registry) (place : Nat) (symbol : String) : Option Operator :=
  rs[place]?.bind fun r => r.resolve? symbol

namespace Step

/-- The registry an operation changes, if it does not make a new one. -/
def target? : Step → Option Nat
  | .standard => none
  | .empty => none
  | .clone _ => none
  | .comparisons target => some target
  | .register target _ _ => some target
  | .overlay target _ => some target

/-- The operator that an operation writes under a symbol. A clone gets what its source has, and what
is laid over another registry is written there. -/
def operator? (rs : List Registry) (symbol : String) : Step → Option Operator
  | .standard => Fields.find? symbol standardOperators
  | .empty => none
  | .clone source => resolveAt rs source symbol
  | .comparisons _ => Fields.find? symbol comparisonOperators
  | .register _ s op => if s = symbol ∧ isOperatorSymbol s then some op else none
  | .overlay _ source => resolveAt rs source symbol

/-- The operator that an operation writes at a place under a symbol: at its target, or where it makes
a new registry. -/
def written? (rs : List Registry) (place : Nat) (symbol : String) (step : Step) : Option Operator :=
  if place = step.target?.getD rs.length ∧ place < (perform rs step).length then
    step.operator? rs symbol
  else none

end Step

/-! ## one operation -/

def AllWellFormed (rs : List Registry) : Prop := ∀ r ∈ rs, r.WellFormed

section
variable {rs : List Registry}

theorem allWellFormed_modify (h : AllWellFormed rs) {f : Registry → Registry}
    (hf : ∀ r, r.WellFormed → (f r).WellFormed) (target : Nat) :
    AllWellFormed (rs.modify target f) := by
  intro r hr
  obtain ⟨place, hplace⟩ := List.mem_iff_getElem?.mp hr
  rw [List.getElem?_modify] at hplace
  obtain ⟨r', hr', rfl⟩ := Option.map_eq_some_iff.mp hplace
  have hwell : r'.WellFormed := h r' (List.mem_of_getElem? hr')
  split
  · exact hf r' hwell
  · exact hwell

theorem allWellFormed_append (h : AllWellFormed rs) {rs' : List Registry} (h' : AllWellFormed rs') :
    AllWellFormed (rs ++ rs') := fun r hr => (List.mem_append.mp hr).elim (h r) (h' r)

theorem toOption_register (r : Registry) (symbol : String) (op : Operator) :
    (r.register symbol op).toOption.getD r
      = if isOperatorSymbol symbol then r.insert symbol op else r := by
  unfold register
  cases isOperatorSymbol symbol <;> rfl

theorem allWellFormed_perform (h : AllWellFormed rs) (step : Step) :
    AllWellFormed (perform rs step) := by
  cases step with
  | standard => exact allWellFormed_append h fun r hr => List.mem_singleton.mp hr ▸ wellFormed_standard
  | empty => exact allWellFormed_append h fun r hr => List.mem_singleton.mp hr ▸ wellFormed_empty
  | clone source =>
    apply allWellFormed_append h
    intro r hr
    exact h r (List.mem_of_getElem? (Option.mem_toList.mp hr))
  | comparisons target => exact allWellFormed_modify h (fun r hr => hr.withComparisons) target
  | register target symbol op =>
    apply allWellFormed_modify h
    intro r hr
    rw [toOption_register]
    split
    · next hs => exact hr.insert hs op
    · exact hr
  | overlay target source =>
    apply allWellFormed_modify h
    intro r hr
    cases hsource : rs[source]? with
    | none => exact hr
    | some other => exact hr.overlay (h other (List.mem_of_getElem? hsource))

/-- An operation leaves every registry but its target as it is. -/
theorem getElem?_perform (step : Step) {place : Nat} (hlt : place < rs.length)
    (h : step.target? ≠ some place) : (perform rs step)[place]? = rs[place]? := by
  have modified : ∀ (f : Registry → Registry) (target : Nat), some target ≠ some place →
      (rs.modify target f)[place]? = rs[place]? := by
    intro f target hne
    rw [List.getElem?_modify]
    simp [show target ≠ place from fun heq => hne (congrArg some heq)]
  cases step with
  | standard => exact List.getElem?_append_left hlt
  | empty => exact List.getElem?_append_left hlt
  | clone source => exact List.getElem?_append_left hlt
  | comparisons target => exact modified _ target h
  | register target symbol op => exact modified _ target h
  | overlay target source => exact modified _ target h

/-! ## what a registry resolves after an operation -/

theorem resolve?_withComparisons (r : Registry) (symbol : String) :
    r.withComparisons.resolve? symbol
      = (Fields.find? symbol comparisonOperators).or (r.resolve? symbol) := by
  show (comparisonOperators.foldl (fun acc e => acc.insert e.1 e.2) r).resolve? symbol = _
  exact resolve?_insertAll (by decide) r symbol

theorem resolveAt_eq_none {place : Nat} (h : rs.length ≤ place) (symbol : String) :
    resolveAt rs place symbol = none := by
  unfold resolveAt
  rw [List.getElem?_eq_none h]
  rfl

/-- An operation that makes a new registry writes all that is in it. -/
theorem resolveAt_create {step : Step} {new : Registry} (hperform : perform rs step = rs ++ [new])
    (htarget : step.target? = none) {symbol : String}
    (hnew : new.resolve? symbol = step.operator? rs symbol) (place : Nat) :
    resolveAt (perform rs step) place symbol
      = (step.written? rs place symbol).or (resolveAt rs place symbol) := by
  unfold Step.written?
  rw [hperform, htarget, Option.getD_none, List.length_append, List.length_singleton]
  by_cases h : place = rs.length
  · subst h
    rw [if_pos ⟨rfl, by omega⟩, resolveAt_eq_none (Nat.le_refl _), Option.or_none, ← hnew]
    unfold resolveAt
    rw [List.getElem?_concat_length]
    rfl
  · rw [if_neg fun hand => h hand.1, Option.none_or]
    unfold resolveAt
    rw [List.getElem?_append]
    split
    · rfl
    · rw [List.getElem?_eq_none (show [new].length ≤ place - rs.length by simp; omega),
        List.getElem?_eq_none (show rs.length ≤ place by omega)]

/-- An operation that changes a registry writes over what is in it. -/
theorem resolveAt_change {step : Step} {target : Nat} {f : Registry → Registry}
    (hperform : perform rs step = rs.modify target f) (htarget : step.target? = some target)
    {symbol : String}
    (hf : ∀ r, (f r).resolve? symbol = (step.operator? rs symbol).or (r.resolve? symbol))
    (place : Nat) :
    resolveAt (perform rs step) place symbol
      = (step.written? rs place symbol).or (resolveAt rs place symbol) := by
  unfold Step.written?
  rw [hperform, htarget, Option.getD_some, List.length_modify]
  unfold resolveAt
  rw [List.getElem?_modify]
  by_cases h : place = target
  · subst h
    cases hplace : rs[place]? with
    | none =>
      have hle : rs.length ≤ place := List.getElem?_eq_none_iff.mp hplace
      rw [if_neg fun hand => by omega]
      rfl
    | some r =>
      have hlt : place < rs.length := (List.getElem?_eq_some_iff.mp hplace).1
      rw [if_pos ⟨rfl, hlt⟩]
      simpa using hf r
  · rw [if_neg fun hand => h hand.1, Option.none_or]
    cases rs[place]? with
    | none => rfl
    | some r => simp [Ne.symm h]

/-- **One operation.** What it wrote wins over what was there. -/
theorem resolveAt_perform (h : AllWellFormed rs) (step : Step) (place : Nat) (symbol : String) :
    resolveAt (perform rs step) place symbol
      = (step.written? rs place symbol).or (resolveAt rs place symbol) := by
  cases step with
  | standard => exact resolveAt_create rfl rfl rfl place
  | empty => exact resolveAt_create rfl rfl rfl place
  | clone source =>
    cases hsource : rs[source]? with
    | none =>
      -- there is nothing to clone, so no place is added
      have hperform : perform rs (.clone source) = rs := by
        rw [perform, hsource]
        exact List.append_nil rs
      unfold Step.written?
      rw [hperform, if_neg fun hand => Nat.ne_of_lt hand.2 hand.1, Option.none_or]
    | some r =>
      have hperform : perform rs (.clone source) = rs ++ [r] := by
        rw [perform, hsource]
        rfl
      apply resolveAt_create hperform rfl
      rw [Step.operator?, resolveAt, hsource]
      rfl
  | comparisons target =>
    exact resolveAt_change rfl rfl (fun r => resolve?_withComparisons r symbol) place
  | register target s op =>
    apply resolveAt_change rfl rfl
    intro r
    rw [toOption_register, Step.operator?]
    cases hs : isOperatorSymbol s with
    | false => simp
    | true =>
      by_cases heq : s = symbol
      · subst heq
        simp [resolve?_insert_self]
      · simp [heq, resolve?_insert_of_ne r s symbol op (Ne.symm heq)]
  | overlay target source =>
    apply resolveAt_change rfl rfl
    intro r
    rw [Step.operator?, resolveAt]
    cases hsource : rs[source]? with
    | none => rfl
    | some other => exact resolve?_overlay (h other (List.mem_of_getElem? hsource)) symbol

end

/-! ## a whole history -/

theorem allWellFormed_run (steps : List Step) : AllWellFormed (run steps) := by
  induction steps using List.reverseRecOn with
  | nil => exact nofun
  | append_singleton steps step ih =>
    rw [run_append]
    exact allWellFormed_perform ih step

/-- The operator that the `n`-th operation of a history writes at a place under a symbol. -/
def writtenAt? (steps : List Step) (place : Nat) (symbol : String) (n : Nat) : Option Operator :=
  steps[n]?.bind fun step => step.written? (run (steps.take n)) place symbol

section
variable {steps : List Step} {place : Nat} {symbol : String}

theorem writtenAt?_of_le {n : Nat} (h : steps.length ≤ n) :
    writtenAt? steps place symbol n = none := by
  unfold writtenAt?
  rw [List.getElem?_eq_none h]
  rfl

theorem lt_length_of_writtenAt? {n : Nat} {op : Operator}
    (h : writtenAt? steps place symbol n = some op) : n < steps.length := by
  apply Nat.lt_of_not_le
  intro hle
  rw [writtenAt?_of_le hle] at h
  cases h

/-- For what an operation from a given one on wrote, only those of the history need a look. -/
theorem writtenAt?_eq_none_of_forall_lt {first : Nat}
    (h : ∀ n < steps.length, first ≤ n → (writtenAt? steps place symbol n).isNone = true) (n : Nat)
    (hn : first ≤ n) : writtenAt? steps place symbol n = none := by
  by_cases hlt : n < steps.length
  · exact Option.isNone_iff_eq_none.mp (h n hlt hn)
  · exact writtenAt?_of_le (Nat.le_of_not_lt hlt)

/-- One operation more adds what it wrote. -/
theorem writtenAt?_append (step : Step) (n : Nat) :
    writtenAt? (steps ++ [step]) place symbol n
      = if n = steps.length then step.written? (run steps) place symbol
        else writtenAt? steps place symbol n := by
  rcases Nat.lt_trichotomy n steps.length with hlt | rfl | hlt
  · rw [if_neg (Nat.ne_of_lt hlt)]
    unfold writtenAt?
    rw [List.getElem?_append_left hlt, List.take_append_of_le_length (Nat.le_of_lt hlt)]
  · rw [if_pos rfl]
    unfold writtenAt?
    rw [List.getElem?_concat_length, List.take_left]
    rfl
  · rw [if_neg (Nat.ne_of_gt hlt), writtenAt?_of_le (Nat.le_of_lt hlt)]
    apply writtenAt?_of_le
    rw [List.length_append, List.length_singleton]
    exact hlt

end

theorem resolveAt_run_append (steps : List Step) (step : Step) (place : Nat) (symbol : String) :
    resolveAt (run (steps ++ [step])) place symbol
      = (step.written? (run steps) place symbol).or (resolveAt (run steps) place symbol) := by
  rw [run_append]
  exact resolveAt_perform (allWellFormed_run steps) step place symbol

section
variable (steps : List Step) (place : Nat) (symbol : String)

/-- **A whole history.** A symbol is resolved as the last operation wrote it that wrote it. -/
theorem resolveAt_run_eq_some_iff (op : Operator) :
    resolveAt (run steps) place symbol = some op ↔
      ∃ n, writtenAt? steps place symbol n = some op ∧
        ∀ m, n < m → writtenAt? steps place symbol m = none := by
  induction steps using List.reverseRecOn with
  | nil =>
    refine ⟨nofun, ?_⟩
    rintro ⟨n, hn, -⟩
    cases hn
  | append_singleton steps step ih =>
    simp only [resolveAt_run_append, Option.or_eq_some_iff, writtenAt?_append, ih]
    constructor
    · rintro (hlast | ⟨hlast, n, hn, hnone⟩)
      · refine ⟨steps.length, (if_pos rfl).trans hlast, fun m hm => ?_⟩
        rw [if_neg (Nat.ne_of_gt hm)]
        exact writtenAt?_of_le (Nat.le_of_lt hm)
      · have hne : n ≠ steps.length := Nat.ne_of_lt (lt_length_of_writtenAt? hn)
        refine ⟨n, (if_neg hne).trans hn, fun m hm => ?_⟩
        split
        · exact hlast
        · exact hnone m hm
    · rintro ⟨n, hn, hnone⟩
      by_cases h : n = steps.length
      · rw [if_pos h] at hn
        exact .inl hn
      · rw [if_neg h] at hn
        refine .inr ⟨?_, n, hn, fun m hm => ?_⟩
        · have hlast := hnone steps.length (lt_length_of_writtenAt? hn)
          rwa [if_pos rfl] at hlast
        · by_cases hm' : m = steps.length
          · exact writtenAt?_of_le (Nat.le_of_eq hm'.symm)
          · have hsame := hnone m hm
            rwa [if_neg hm'] at hsame

theorem resolveAt_run_eq_none_iff :
    resolveAt (run steps) place symbol = none ↔ ∀ n, writtenAt? steps place symbol n = none := by
  induction steps using List.reverseRecOn with
  | nil => exact ⟨fun _ n => rfl, fun _ => rfl⟩
  | append_singleton steps step ih =>
    simp only [resolveAt_run_append, Option.or_eq_none_iff, writtenAt?_append, ih]
    constructor
    · rintro ⟨hlast, hnone⟩ n
      split
      · exact hlast
      · exact hnone n
    · intro hnone
      refine ⟨by simpa using hnone steps.length, fun n => ?_⟩
      by_cases h : n = steps.length
      · exact writtenAt?_of_le (Nat.le_of_eq h.symm)
      · simpa [h] using hnone n

end

/-- Operations on other registries, clones and lower ones of an overlay among them, leave a registry as
it is. -/
theorem getElem?_run_append (steps more : List Step) {place : Nat}
    (hlt : place < (run steps).length) (h : ∀ step ∈ more, step.target? ≠ some place) :
    (run (steps ++ more))[place]? = (run steps)[place]? := by
  have hfold : ∀ rs : List Registry, place < rs.length →
      (more.foldl perform rs)[place]? = rs[place]? := by
    induction more with
    | nil => exact fun rs _ => rfl
    | cons step more ih =>
      intro rs hrs
      obtain ⟨hstep, hmore⟩ := List.forall_mem_cons.mp h
      have hsame := getElem?_perform step hrs hstep
      have hrs' : place < (perform rs step).length := by
        rw [List.getElem?_eq_getElem hrs] at hsame
        exact (List.getElem?_eq_some_iff.mp hsame).1
      rw [List.foldl_cons, ih hmore _ hrs', hsame]
  rw [run_append]
  exact hfold _ hlt

theorem perform_register_of_error {r : Registry} {symbol : String} {op : Operator}
    {e : InvalidSymbol} (h : r.register symbol op = .error e) (rs : List Registry) (target : Nat) :
    perform rs (.register target symbol op) = rs := by
  have hs : isOperatorSymbol symbol = false := by
    unfold register at h
    cases hs : isOperatorSymbol symbol with
    | false => rfl
    | true =>
      rw [hs] at h
      cases h
  have hsame : (fun r : Registry => (r.register symbol op).toOption.getD r) = id := by
    funext r
    rw [toOption_register, hs]
    rfl
  rw [perform, hsame]
  exact List.modify_id target rs

/-! ## keys in the compiler -/

/-- The compiler rejects a key exactly when the key is not registered, where it gets to the key at all:
nothing before it is bad, and its field has a column. The form of the key need not be looked at, for
all registered keys have it. -/
theorem compile_unsupported_iff {r : Registry} (h : r.WellFormed) (schema : Schema)
    (rules : List Rule) (key : String) :
    (compile schema r rules).result = .error (.unsupportedOperator key) ↔
      ∃ before field operand after column,
        clausesInOrder rules = before ++ .apply field key operand :: after ∧
        (∀ c ∈ before, ∀ e, ¬ c.Faulty schema r e) ∧
        schema field = some column ∧ r.resolve? key = none := by
  rw [← fault?_eq_some_iff, fault?_compile, List.findSome?_eq_some_iff]
  constructor
  · rintro ⟨before, c, after, hrules, hc, hbefore⟩
    cases (c.fault?_eq_some_iff schema r _).mp hc with
    | unsupported field _ operand column hcolumn unknown =>
      refine ⟨before, field, operand, after, column, hrules, fun c hc e he => ?_, hcolumn, ?_⟩
      · rw [← c.fault?_eq_some_iff, hbefore c hc] at he
        cases he
      · rcases unknown with hform | hnone
        · apply Option.not_isSome_iff_eq_none.mp
          intro hsome
          have hproper := h.proper key ((WellFormed.mem_symbols_iff key).mpr hsome)
          rw [hform] at hproper
          cases hproper
        · exact hnone
  · rintro ⟨before, field, operand, after, column, hrules, hbefore, hcolumn, hnone⟩
    refine ⟨before, .apply field key operand, after, hrules, ?_, fun c hc => ?_⟩
    · exact (Clause.fault?_eq_some_iff schema r _ _).mpr
        (.unsupported field key operand column hcolumn (.inr hnone))
    · apply Option.eq_none_iff_forall_ne_some.mpr
      intro e he
      exact hbefore c hc e ((c.fault?_eq_some_iff schema r e).mp he)

/-! ## every registry that is built -/

/-- Some sequence of operations builds the registry. -/
def Built (r : Registry) : Prop := ∃ steps, r ∈ run steps

theorem Built.wellFormed {r : Registry} (h : r.Built) : r.WellFormed := by
  obtain ⟨steps, hr⟩ := h
  exact allWellFormed_run steps r hr

/-- **Registries after any history.** A symbol is resolved as the last operation wrote it that wrote
it. A refused symbol changes nothing, and neither do operations on other registries. The symbols have
the form `$name`, so that the compiler rejects a key because it is not registered and for no other
reason; they increase strictly, they are those that are resolved, and sorting gives them from the
entries in any order. Of two registries the upper one wins, in whatever order its entries come, and
laying over is associative and idempotent. -/
theorem run_contents :
    (∀ steps place r, (run steps)[place]? = some r → ∀ symbol,
      (∀ op, r.resolve? symbol = some op ↔
        ∃ n, writtenAt? steps place symbol n = some op ∧
          ∀ m, n < m → writtenAt? steps place symbol m = none) ∧
      (r.resolve? symbol = none ↔ ∀ n, writtenAt? steps place symbol n = none)) ∧
    (∀ steps target r symbol op e, (run steps)[target]? = some r →
      r.register symbol op = .error e →
      run (steps ++ [.register target symbol op]) = run steps) ∧
    (∀ steps more place, place < (run steps).length →
      (∀ step ∈ more, step.target? ≠ some place) →
      (run (steps ++ more))[place]? = (run steps)[place]?) ∧
    (∀ r : Registry, r.Built →
      (∀ symbol ∈ r.symbols, ∃ name, name ≠ "" ∧ symbol = "$" ++ name) ∧
      (∀ schema rules key,
        (compile schema r rules).result = .error (.unsupportedOperator key) ↔
          ∃ before field operand after column,
            clausesInOrder rules = before ++ .apply field key operand :: after ∧
            (∀ c ∈ before, ∀ e, ¬ c.Faulty schema r e) ∧
            schema field = some column ∧ r.resolve? key = none) ∧
      r.symbols.Pairwise (· < ·) ∧
      (∀ es : List (String × Operator), es.Perm r.entries →
        (Fields.keys es).mergeSort (· ≤ ·) = r.symbols) ∧
      (∀ symbol, symbol ∈ r.symbols ↔ (r.resolve? symbol).isSome = true) ∧
      r.size = r.symbols.length ∧
      (r.isEmpty = true ↔ r.symbols = [])) ∧
    (∀ a b c : Registry, a.Built → b.Built → c.Built →
      (∀ es : List (String × Operator), es.Perm b.entries →
        es.foldl (fun acc e => acc.insert e.1 e.2) a = a.overlay b) ∧
      (∀ symbol, (a.overlay b).resolve? symbol = (b.resolve? symbol).or (a.resolve? symbol)) ∧
      (a.overlay b).overlay c = a.overlay (b.overlay c) ∧
      (a.overlay b).overlay b = a.overlay b ∧
      a.overlay a = a) := by
  refine ⟨?last, ?refused, ?others, ?symbols, ?overlay⟩
  case last =>
    intro steps place r hr symbol
    have hat : resolveAt (run steps) place symbol = r.resolve? symbol := by
      rw [resolveAt, hr]
      rfl
    rw [← hat]
    exact ⟨resolveAt_run_eq_some_iff steps place symbol, resolveAt_run_eq_none_iff steps place symbol⟩
  case refused =>
    intro steps target r symbol op e _ he
    rw [run_append]
    exact perform_register_of_error he (run steps) target
  case others => exact fun steps more place => getElem?_run_append steps more
  case symbols =>
    intro r hr
    have h := hr.wellFormed
    refine ⟨fun symbol hs => ?_, compile_unsupported_iff h, h.increasing,
      fun es => h.sort_keys_of_perm, WellFormed.mem_symbols_iff, ?_, ?_⟩
    · exact exists_name_of_isOperatorSymbol (h.proper symbol hs)
    · exact (List.length_map _).symm
    · exact List.isEmpty_iff.trans List.map_eq_nil_iff.symm
  case overlay =>
    intro a b c ha hb hc
    have ha := ha.wellFormed
    have hb := hb.wellFormed
    exact ⟨fun es h => overlay_of_perm ha hb h, resolve?_overlay hb, overlay_assoc ha hb hc.wellFormed,
      overlay_again ha hb, overlay_self ha⟩

/-- The standard operators with `$like`, a clone with another `$eq`, and the comparisons, which replace
a `$ne` that was there and are laid over the first registry. -/
def layered : List Step :=
  [.standard, .register 0 "$like" .equals, .register 0 "like" .equals, .clone 0,
    .register 1 "$eq" .oneOf, .empty, .register 2 "$ne" .oneOf, .comparisons 2, .overlay 0 2]

theorem run_contents_layered :
    ∃ lower clone upper, run layered = [lower, clone, upper] ∧
      lower.resolve? "$ne" = some (.comparing .ne) ∧
      lower.resolve? "$like" = some .equals ∧
      clone.resolve? "$ne" = none ∧
      run (layered.take 2 ++ [.register 0 "like" .equals]) = run (layered.take 2) ∧
      (run (layered.take 4 ++ [.register 1 "$eq" .oneOf]))[0]? = (run (layered.take 4))[0]? ∧
      lower.symbols.Pairwise (· < ·) ∧
      upper.entries.reverse.foldl (fun acc e => acc.insert e.1 e.2) clone = clone.overlay upper := by
  obtain ⟨last, refused, others, symbols, overlay⟩ := run_contents
  obtain ⟨lower, clone, upper, h⟩ : ∃ lower clone upper, run layered = [lower, clone, upper] :=
    ⟨_, _, _, rfl⟩
  have hlower := last layered 0 lower (by rw [h]; rfl)
  have hclone := last layered 1 clone (by rw [h]; rfl)
  have built : ∀ r ∈ [lower, clone, upper], r.Built := fun r hr => ⟨layered, h ▸ hr⟩
  refine ⟨lower, clone, upper, h, ?_, ?_, ?_, ?_, ?_, ?_, ?_⟩
  · exact ((hlower "$ne").1 _).mpr ⟨8, rfl, fun m hm => writtenAt?_of_le hm⟩
  · exact ((hlower "$like").1 _).mpr ⟨1, rfl, writtenAt?_eq_none_of_forall_lt (by decide)⟩
  · exact (hclone "$ne").2.mpr fun n =>
      writtenAt?_eq_none_of_forall_lt (by decide) n (Nat.zero_le n)
  · exact refused (layered.take 2) 0 _ "like" .equals ⟨"like"⟩ rfl rfl
  · exact others (layered.take 4) [.register 1 "$eq" .oneOf] 0 (by decide) (by simp [Step.target?])
  · exact (symbols lower (built lower (by simp))).2.2.1
  · have hupper := built upper (by simp)
    exact (overlay clone upper upper (built clone (by simp)) hupper hupper).1 _ (List.reverse_perm _)

end Registry

end AccessFilter
