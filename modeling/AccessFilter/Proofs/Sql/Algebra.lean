import AccessFilter.Proofs.Sql.Group

/-!
# The algebra of three-valued truth

Evaluation stops at the first part that decides a group and carries what is unknown along. Its result
is nevertheless the least or the greatest truth among all parts, false being below unknown and unknown
below true. So the parts of a group may be moved, repeated and taken out of inner groups, and a
negation may be pushed through the groups down to the leaves, each of which has an opposite.

* `Truth.degree`          the order of the three truths;
* `Predicate.Rearranged`  trees that differ in the arrangement of their groups, at any depth;
* `evaluate_rearranged`   they have the same truth;
* `Predicate.pushed`, `opposite`   a tree and its negation, with all negations pushed to the leaves;
* `evaluate_pushed`, `evaluate_opposite`   their truths;
* `evaluate_algebra`      the laws together.
-/

namespace AccessFilter

/-! ## degrees of truth -/

namespace Truth

/-- How true a truth is: false is below unknown, and unknown below true. -/
def degree : Truth → Nat
  | some false => 0
  | none => 1
  | some true => 2

theorem degree_and (s t : Truth) : (s.and t).degree = min s.degree t.degree := by
  rcases s with _ | _ | _ <;> rcases t with _ | _ | _ <;> rfl

theorem degree_or (s t : Truth) : (s.or t).degree = max s.degree t.degree := by
  rcases s with _ | _ | _ <;> rcases t with _ | _ | _ <;> rfl

theorem not_and (s t : Truth) : (s.and t).not = s.not.or t.not := by
  rcases s with _ | _ | _ <;> rcases t with _ | _ | _ <;> rfl

theorem not_or (s t : Truth) : (s.or t).not = s.not.and t.not := by
  rcases s with _ | _ | _ <;> rcases t with _ | _ | _ <;> rfl

theorem not_not (t : Truth) : t.not.not = t := by
  rcases t with _ | _ | _ <;> rfl

/-- A truth is given by when it is a known one and when it is the other. -/
theorem eq_iff_of (b : Bool) (s t : Truth) :
    s = t ↔ (s = some b ↔ t = some b) ∧ (s = some (!b) ↔ t = some (!b)) := by
  cases b with
  | false => exact (eq_iff s t).trans and_comm
  | true => exact eq_iff s t

end Truth

namespace Predicate

section
variable (row : Row)

theorem degree_evaluateAll (ps : List Predicate) :
    (evaluateAll row ps).degree = (ps.map fun p => (p.evaluate row).degree).foldr min 2 := by
  induction ps with
  | nil => rfl
  | cons p ps ih => rw [evaluateAll_cons, Truth.degree_and, ih, List.map_cons, List.foldr_cons]

theorem degree_evaluateAny (ps : List Predicate) :
    (evaluateAny row ps).degree = (ps.map fun p => (p.evaluate row).degree).foldr max 0 := by
  induction ps with
  | nil => rfl
  | cons p ps ih => rw [evaluateAny_cons, Truth.degree_or, ih, List.map_cons, List.foldr_cons]

end

/-! ## rearranged groups -/

/-- A group of either kind: any of its parts, or all of them. -/
def group (any : Bool) (parts : List Predicate) : Predicate := if any then .or parts else .and parts

/-- Trees that differ only in the arrangement of their groups: parts are moved or repeated, and a
group inside a group of its kind is dissolved, at any depth and any number of times. -/
inductive Rearranged : Predicate → Predicate → Prop
  | refl (p : Predicate) : Rearranged p p
  | symm {p q : Predicate} (h : Rearranged p q) : Rearranged q p
  | trans {p q r : Predicate} (h : Rearranged p q) (h' : Rearranged q r) : Rearranged p r
  | parts (any : Bool) {ps qs : List Predicate} (same : ∀ p, p ∈ ps ↔ p ∈ qs) :
      Rearranged (group any ps) (group any qs)
  | dissolve (any : Bool) (before inner after : List Predicate) :
      Rearranged (group any (before ++ group any inner :: after))
        (group any (before ++ inner ++ after))
  | within (any : Bool) (before after : List Predicate) {p q : Predicate} (h : Rearranged p q) :
      Rearranged (group any (before ++ p :: after)) (group any (before ++ q :: after))
  | negated {p q : Predicate} (h : Rearranged p q) : Rearranged (.not p) (.not q)

section
variable (row : Row)

/-- One truth decides a group, whatever the other parts say. -/
theorem evaluate_group_eq_iff (any : Bool) (parts : List Predicate) :
    (group any parts).evaluate row = some any ↔ ∃ p ∈ parts, p.evaluate row = some any := by
  cases any with
  | false =>
    show (Predicate.and parts).evaluate row = _ ↔ _
    rw [evaluate_and, evaluateAll_eq_false_iff]
  | true =>
    show (Predicate.or parts).evaluate row = _ ↔ _
    rw [evaluate_or, evaluateAny_eq_true_iff]

/-- The other truth needs all parts. -/
theorem evaluate_group_eq_not_iff (any : Bool) (parts : List Predicate) :
    (group any parts).evaluate row = some (!any) ↔ ∀ p ∈ parts, p.evaluate row = some (!any) := by
  cases any with
  | false =>
    show (Predicate.and parts).evaluate row = _ ↔ _
    rw [evaluate_and, Bool.not_false, evaluateAll_eq_true_iff]
  | true =>
    show (Predicate.or parts).evaluate row = _ ↔ _
    rw [evaluate_or, Bool.not_true, evaluateAny_eq_false_iff]

theorem evaluate_group_congr {any : Bool} {ps qs : List Predicate}
    (decided : (∃ p ∈ ps, p.evaluate row = some any) ↔ ∃ q ∈ qs, q.evaluate row = some any)
    (undecided : (∀ p ∈ ps, p.evaluate row = some (!any)) ↔
      ∀ q ∈ qs, q.evaluate row = some (!any)) :
    (group any ps).evaluate row = (group any qs).evaluate row := by
  rw [Truth.eq_iff_of any, evaluate_group_eq_iff, evaluate_group_eq_iff, evaluate_group_eq_not_iff,
    evaluate_group_eq_not_iff]
  exact ⟨decided, undecided⟩

theorem evaluate_rearranged {p q : Predicate} (h : Rearranged p q) :
    p.evaluate row = q.evaluate row := by
  induction h with
  | refl p => rfl
  | symm _ ih => exact ih.symm
  | trans _ _ ih ih' => exact ih.trans ih'
  | parts any same =>
    apply evaluate_group_congr
    · simp only [same]
    · simp only [same]
  | dissolve any before inner after =>
    apply evaluate_group_congr
    · simp only [List.append_assoc, List.mem_append, List.mem_cons, or_and_right, exists_or,
        exists_eq_left, evaluate_group_eq_iff]
    · simp only [List.append_assoc, List.forall_mem_append, List.forall_mem_cons,
        evaluate_group_eq_not_iff]
  | within any before after _ ih =>
    apply evaluate_group_congr
    · simp only [List.mem_append, List.mem_cons, or_and_right, exists_or, exists_eq_left, ih]
    · simp only [List.forall_mem_append, List.forall_mem_cons, ih]
  | negated _ ih => rw [evaluate, evaluate, ih]

end

end Predicate

/-! ## negations pushed to the leaves -/

namespace Comparison

/-- The comparison that is true where this one is false. -/
def complement : Comparison → Comparison
  | .eq => .ne
  | .ne => .eq
  | .gt => .le
  | .ge => .lt
  | .lt => .ge
  | .le => .gt

/-- The complement is unknown on the same values, nulls and values of different kinds among them. -/
theorem test_complement (op : Comparison) (left right : Value) :
    op.complement.test left right = (op.test left right).not := by
  unfold complement test
  cases op with
  | eq => rfl
  | ne => exact (Truth.not_not _).symm
  | gt => rcases left.order right with _ | _ | _ | _ <;> rfl
  | ge => rcases left.order right with _ | _ | _ | _ <;> rfl
  | lt => rcases left.order right with _ | _ | _ | _ <;> rfl
  | le => rcases left.order right with _ | _ | _ | _ <;> rfl

end Comparison

namespace Predicate

mutual

/-- The tree with its negations pushed to the leaves. -/
def pushed : Predicate → Predicate
  | .const b => .const b
  | .compare c op v => .compare c op v
  | .isNull c negated => .isNull c negated
  | .inList c vs => .inList c vs
  | .and parts => .and (pushedAll parts)
  | .or parts => .or (pushedAll parts)
  | .not inner => opposite inner

/-- The negation of the tree, pushed to the leaves: groups are exchanged, a second negation cancels
the first, and every leaf becomes its opposite. -/
def opposite : Predicate → Predicate
  | .const b => .const !b
  | .compare c op v => .compare c op.complement v
  | .isNull c negated => .isNull c !negated
  | .inList c vs => .and (vs.map fun v => .compare c .ne v)
  | .and parts => .or (oppositeAll parts)
  | .or parts => .and (oppositeAll parts)
  | .not inner => pushed inner

def pushedAll : List Predicate → List Predicate
  | [] => []
  | p :: ps => pushed p :: pushedAll ps

def oppositeAll : List Predicate → List Predicate
  | [] => []
  | p :: ps => opposite p :: oppositeAll ps

end

mutual

def NegationFree : Predicate → Prop
  | .const _ => True
  | .compare _ _ _ => True
  | .isNull _ _ => True
  | .inList _ _ => True
  | .and parts => AllNegationFree parts
  | .or parts => AllNegationFree parts
  | .not _ => False

def AllNegationFree : List Predicate → Prop
  | [] => True
  | p :: ps => NegationFree p ∧ AllNegationFree ps

end

theorem allNegationFree_map_compare (c : Column) (vs : List Value) :
    AllNegationFree (vs.map fun v => .compare c .ne v) := by
  induction vs with
  | nil => trivial
  | cons v vs ih => exact ⟨trivial, ih⟩

mutual

theorem negationFree_pushed : (p : Predicate) → p.pushed.NegationFree
  | .const _ => trivial
  | .compare _ _ _ => trivial
  | .isNull _ _ => trivial
  | .inList _ _ => trivial
  | .and parts => allNegationFree_pushed parts
  | .or parts => allNegationFree_pushed parts
  | .not inner => negationFree_opposite inner

theorem negationFree_opposite : (p : Predicate) → p.opposite.NegationFree
  | .const _ => trivial
  | .compare _ _ _ => trivial
  | .isNull _ _ => trivial
  | .inList c vs => allNegationFree_map_compare c vs
  | .and parts => allNegationFree_opposite parts
  | .or parts => allNegationFree_opposite parts
  | .not inner => negationFree_pushed inner

theorem allNegationFree_pushed : (ps : List Predicate) → AllNegationFree (pushedAll ps)
  | [] => trivial
  | p :: ps => ⟨negationFree_pushed p, allNegationFree_pushed ps⟩

theorem allNegationFree_opposite : (ps : List Predicate) → AllNegationFree (oppositeAll ps)
  | [] => trivial
  | p :: ps => ⟨negationFree_opposite p, allNegationFree_opposite ps⟩

end

section
variable (row : Row)

/-- To be in no way a member is to differ from every value. -/
theorem evaluateAll_map_ne (c : Column) (vs : List Value) :
    evaluateAll row (vs.map fun v => .compare c .ne v)
      = (Truth.member (row.cell c.name) vs).not := by
  induction vs with
  | nil => rfl
  | cons v vs ih =>
    rw [List.map_cons, evaluateAll_cons, ih, Truth.member_cons, Truth.not_or, evaluate]
    rfl

mutual

theorem evaluate_pushed : (p : Predicate) → p.pushed.evaluate row = p.evaluate row
  | .const _ => rfl
  | .compare _ _ _ => rfl
  | .isNull _ _ => rfl
  | .inList _ _ => rfl
  | .and parts => by rw [pushed, evaluate_and, evaluateAll_pushed parts, evaluate_and]
  | .or parts => by rw [pushed, evaluate_or, evaluateAny_pushed parts, evaluate_or]
  | .not inner => by rw [pushed, evaluate_opposite inner, evaluate]

theorem evaluate_opposite : (p : Predicate) → p.opposite.evaluate row = (p.evaluate row).not
  | .const _ => rfl
  | .compare c op v => by rw [opposite, evaluate, Comparison.test_complement, evaluate]
  | .isNull c negated => by
    rw [opposite, evaluate, evaluate]
    cases (row.cell c.name).isNull <;> cases negated <;> rfl
  | .inList c vs => by rw [opposite, evaluate_and, evaluateAll_map_ne, evaluate]
  | .and parts => by rw [opposite, evaluate_or, evaluateAny_opposite parts, evaluate_and]
  | .or parts => by rw [opposite, evaluate_and, evaluateAll_opposite parts, evaluate_or]
  | .not inner => by rw [opposite, evaluate_pushed inner, evaluate, Truth.not_not]

theorem evaluateAll_pushed :
    (ps : List Predicate) → evaluateAll row (pushedAll ps) = evaluateAll row ps
  | [] => rfl
  | p :: ps => by
    rw [pushedAll, evaluateAll_cons, evaluate_pushed p, evaluateAll_pushed ps, evaluateAll_cons]

theorem evaluateAny_pushed :
    (ps : List Predicate) → evaluateAny row (pushedAll ps) = evaluateAny row ps
  | [] => rfl
  | p :: ps => by
    rw [pushedAll, evaluateAny_cons, evaluate_pushed p, evaluateAny_pushed ps, evaluateAny_cons]

theorem evaluateAll_opposite :
    (ps : List Predicate) → evaluateAll row (oppositeAll ps) = (evaluateAny row ps).not
  | [] => rfl
  | p :: ps => by
    rw [oppositeAll, evaluateAll_cons, evaluate_opposite p, evaluateAll_opposite ps,
      evaluateAny_cons, Truth.not_or]

theorem evaluateAny_opposite :
    (ps : List Predicate) → evaluateAny row (oppositeAll ps) = (evaluateAll row ps).not
  | [] => rfl
  | p :: ps => by
    rw [oppositeAll, evaluateAny_cons, evaluate_opposite p, evaluateAny_opposite ps,
      evaluateAll_cons, Truth.not_and]

end

end

/-- **The algebra of evaluation.** A conjunction has the least truth of its parts and a disjunction
the greatest. Parts may be moved and repeated and inner groups dissolved, at any depth, and a negation
may be pushed to the leaves, after which none is left. -/
theorem evaluate_algebra (row : Row) :
    (∀ parts, ((Predicate.and parts).evaluate row).degree
      = (parts.map fun p => (p.evaluate row).degree).foldr min 2) ∧
    (∀ parts, ((Predicate.or parts).evaluate row).degree
      = (parts.map fun p => (p.evaluate row).degree).foldr max 0) ∧
    (∀ p q, Rearranged p q → p.evaluate row = q.evaluate row) ∧
    ∀ p, (Predicate.not p).evaluate row = p.opposite.evaluate row ∧ p.opposite.NegationFree := by
  refine ⟨fun parts => ?_, fun parts => ?_, fun p q h => evaluate_rearranged row h, fun p => ?_⟩
  · rw [evaluate_and, degree_evaluateAll]
  · rw [evaluate_or, degree_evaluateAny]
  · rw [evaluate, evaluate_opposite]
    exact ⟨rfl, negationFree_opposite p⟩

/-- Under a negation an inner conjunction is dissolved, a disjunction inside it turned round, and a
repeated part left out. The rank is missing, so what is left of the negation is unknown. -/
theorem evaluate_algebra_dissolved :
    let owner : Predicate := .compare ⟨"sites", "owner"⟩ .eq (.string "u1")
    let rank : Predicate := .inList ⟨"sites", "rank"⟩ [.string "a", .null]
    let state : Predicate := .isNull ⟨"sites", "state"⟩ true
    let p : Predicate := .not (.and [owner, .and [rank, .or [state, owner]], owner])
    let q : Predicate := .not (.and [.or [owner, state], rank, owner])
    let row : Row := [("state", .null), ("owner", .string "u1")]
    Rearranged p q ∧ p.evaluate row = q.evaluate row ∧ q.evaluate row = none ∧
      (Predicate.not (.and [.or [owner, state], rank, owner])).evaluate row
        = (Predicate.or [.and [.compare ⟨"sites", "owner"⟩ .ne (.string "u1"),
              .isNull ⟨"sites", "state"⟩ false],
            .and [.compare ⟨"sites", "rank"⟩ .ne (.string "a"),
              .compare ⟨"sites", "rank"⟩ .ne .null],
            .compare ⟨"sites", "owner"⟩ .ne (.string "u1")]).evaluate row := by
  intro owner rank state p q row
  have dissolved : Rearranged (.and [owner, .and [rank, .or [state, owner]], owner])
      (.and [owner, rank, .or [state, owner], owner]) :=
    .dissolve false [owner] [rank, .or [state, owner]] [owner]
  have turned : Rearranged (.and [owner, rank, .or [state, owner], owner])
      (.and [owner, rank, .or [owner, state], owner]) :=
    .within false [owner, rank] [owner] (.parts true (by simp [or_comm]))
  have once : Rearranged (.and [owner, rank, .or [owner, state], owner])
      (.and [.or [owner, state], rank, owner]) :=
    .parts false (by simp only [List.mem_cons, List.not_mem_nil]; grind)
  have h : Rearranged p q := .negated ((dissolved.trans turned).trans once)
  obtain ⟨-, -, hsame, hnot⟩ := evaluate_algebra row
  exact ⟨h, hsame p q h, rfl, (hnot _).1⟩

end Predicate

end AccessFilter
