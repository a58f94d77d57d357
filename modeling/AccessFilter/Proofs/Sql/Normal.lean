import AccessFilter.Proofs.Sql.Group
import AccessFilter.Sql.Fragment

/-!
# Predicates without empty groups and groups of one

The text of a predicate does not show a group of one part, and an empty group shows as a constant.
`Predicate.normal` removes both everywhere.

* `Predicate.normal`     every group of one replaced by its part, every empty one by its constant;
* `evaluate_normal`      the normal form has the same truth on every row;
* `fragment_normal`      it has the same text and the same bound values.
-/

namespace AccessFilter

namespace Predicate

mutual

/-- A predicate with no empty group and no group of one. -/
def normal : Predicate → Predicate
  | .const b => .const b
  | .compare c op v => .compare c op v
  | .isNull c negated => .isNull c negated
  | .inList c vs => .inList c vs
  | .and parts => conjunction (normalAll parts)
  | .or parts => disjunction (normalAll parts)
  | .not inner => .not (normal inner)

def normalAll : List Predicate → List Predicate
  | [] => []
  | p :: ps => normal p :: normalAll ps

end

/-! ## truth -/

section
variable (row : Row)

mutual

theorem evaluate_normal : (p : Predicate) → (normal p).evaluate row = p.evaluate row
  | .const _ => rfl
  | .compare _ _ _ => rfl
  | .isNull _ _ => rfl
  | .inList _ _ => rfl
  | .and parts => by
    rw [normal, evaluate_conjunction, evaluateAll_normalAll parts, evaluate_and]
  | .or parts => by
    rw [normal, evaluate_disjunction, evaluateAny_normalAll parts, evaluate_or]
  | .not inner => by rw [normal, evaluate, evaluate_normal inner, evaluate]

theorem evaluateAll_normalAll :
    (ps : List Predicate) → evaluateAll row (normalAll ps) = evaluateAll row ps
  | [] => rfl
  | p :: ps => by
    rw [normalAll, evaluateAll_cons, evaluate_normal p, evaluateAll_normalAll ps, evaluateAll_cons]

theorem evaluateAny_normalAll :
    (ps : List Predicate) → evaluateAny row (normalAll ps) = evaluateAny row ps
  | [] => rfl
  | p :: ps => by
    rw [normalAll, evaluateAny_cons, evaluate_normal p, evaluateAny_normalAll ps, evaluateAny_cons]

end

end

/-! ## text and bound values -/

theorem render_conjunction (style : Placeholder) (bound : Nat) (ps : List Predicate) :
    (conjunction ps).render style bound
      = groupChars " AND ".toList "TRUE".toList (renderAll style bound ps) := by
  rcases ps with _ | ⟨p, _ | ⟨q, ps⟩⟩ <;> rfl

theorem render_disjunction (style : Placeholder) (bound : Nat) (ps : List Predicate) :
    (disjunction ps).render style bound
      = groupChars " OR ".toList "FALSE".toList (renderAll style bound ps) := by
  rcases ps with _ | ⟨p, _ | ⟨q, ps⟩⟩ <;> rfl

theorem values_conjunction (ps : List Predicate) : (conjunction ps).values = valuesAll ps := by
  rcases ps with _ | ⟨p, _ | ⟨q, ps⟩⟩
  · rfl
  · rw [valuesAll, valuesAll, List.append_nil]
    rfl
  · rfl

theorem values_disjunction (ps : List Predicate) : (disjunction ps).values = valuesAll ps := by
  rcases ps with _ | ⟨p, _ | ⟨q, ps⟩⟩
  · rfl
  · rw [valuesAll, valuesAll, List.append_nil]
    rfl
  · rfl

mutual

theorem values_normal : (p : Predicate) → (normal p).values = p.values
  | .const _ => rfl
  | .compare _ _ _ => rfl
  | .isNull _ _ => rfl
  | .inList _ _ => rfl
  | .and parts => by rw [normal, values_conjunction, valuesAll_normalAll parts, values]
  | .or parts => by rw [normal, values_disjunction, valuesAll_normalAll parts, values]
  | .not inner => by rw [normal, values, values_normal inner, values]

theorem valuesAll_normalAll : (ps : List Predicate) → valuesAll (normalAll ps) = valuesAll ps
  | [] => rfl
  | p :: ps => by rw [normalAll, valuesAll, values_normal p, valuesAll_normalAll ps, valuesAll]

end

/-- A group stands in parentheses of its own exactly when it has several parts in the end. -/
theorem isGrouped_normal : (p : Predicate) → (normal p).isGrouped = p.isGrouped
  | .const _ => rfl
  | .compare _ _ _ => rfl
  | .isNull _ _ => rfl
  | .inList _ _ => rfl
  | .not _ => rfl
  | .and [] => rfl
  | .or [] => rfl
  | .and [p] => isGrouped_normal p
  | .or [p] => isGrouped_normal p
  | .and (_ :: _ :: _) => rfl
  | .or (_ :: _ :: _) => rfl

mutual

theorem render_normal (style : Placeholder) (bound : Nat) :
    (p : Predicate) → (normal p).render style bound = p.render style bound
  | .const _ => rfl
  | .compare _ _ _ => rfl
  | .isNull _ _ => rfl
  | .inList _ _ => rfl
  | .and parts => by
    rw [normal, render_conjunction, renderAll_normalAll style bound parts, render]
  | .or parts => by
    rw [normal, render_disjunction, renderAll_normalAll style bound parts, render]
  | .not inner => by
    rw [normal, render, isGrouped_normal, render_normal style bound inner, render]

theorem renderAll_normalAll (style : Placeholder) (bound : Nat) :
    (ps : List Predicate) → renderAll style bound (normalAll ps) = renderAll style bound ps
  | [] => rfl
  | p :: ps => by
    rw [normalAll, renderAll, render_normal style bound p, values_normal,
      renderAll_normalAll style _ ps, renderAll]

end

theorem fragment_normal (style : Placeholder) (p : Predicate) :
    (normal p).fragment style = p.fragment style := by
  rw [fragment, render_normal, values_normal, fragment]

end Predicate

end AccessFilter
