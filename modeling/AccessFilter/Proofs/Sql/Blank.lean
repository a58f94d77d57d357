import AccessFilter.Proofs.Sql.Normal

/-!
# Predicates with their values blanked out

The text of a predicate shows where a value is bound, but not which. Blanking out every value, a
list keeping its length, leaves a predicate with the same text and as many bound values.

* `Predicate.blank`      a predicate with null in the place of every value;
* `render_blank`         it has the same text;
* `length_values_blank`  and binds as many values;
* `fragment_of_blank_eq`  so the text tells nothing of the values.
-/

namespace AccessFilter

namespace Predicate

mutual

/-- A predicate with null in the place of every value. -/
def blank : Predicate → Predicate
  | .const b => .const b
  | .compare c op _ => .compare c op .null
  | .isNull c negated => .isNull c negated
  | .inList c vs => .inList c (vs.map fun _ => .null)
  | .and parts => .and (blankAll parts)
  | .or parts => .or (blankAll parts)
  | .not inner => .not (blank inner)

def blankAll : List Predicate → List Predicate
  | [] => []
  | p :: ps => blank p :: blankAll ps

end

theorem blankAll_eq_map (ps : List Predicate) : blankAll ps = ps.map blank := by
  induction ps with
  | nil => rfl
  | cons p ps ih => rw [blankAll, ih, List.map_cons]

theorem blank_conjunction (ps : List Predicate) :
    (conjunction ps).blank = conjunction (ps.map blank) := by
  rcases ps with _ | ⟨p, _ | ⟨q, ps⟩⟩
  · rfl
  · rfl
  · show Predicate.and (blankAll (p :: q :: ps)) = _
    rw [blankAll_eq_map]
    rfl

/-! ## bound values -/

mutual

theorem length_values_blank : (p : Predicate) → (blank p).values.length = p.values.length
  | .const _ => rfl
  | .compare _ _ _ => rfl
  | .isNull _ _ => rfl
  | .inList _ vs => by rw [blank, values, values, List.length_map]
  | .and parts => by rw [blank, values, length_valuesAll_blankAll parts, values]
  | .or parts => by rw [blank, values, length_valuesAll_blankAll parts, values]
  | .not inner => by rw [blank, values, length_values_blank inner, values]

theorem length_valuesAll_blankAll :
    (ps : List Predicate) → (valuesAll (blankAll ps)).length = (valuesAll ps).length
  | [] => rfl
  | p :: ps => by
    rw [blankAll, valuesAll, valuesAll, List.length_append, List.length_append,
      length_values_blank p, length_valuesAll_blankAll ps]

end

/-! ## text -/

theorem isGrouped_blank : (p : Predicate) → (blank p).isGrouped = p.isGrouped
  | .const _ => rfl
  | .compare _ _ _ => rfl
  | .isNull _ _ => rfl
  | .inList _ _ => rfl
  | .not _ => rfl
  | .and [] => rfl
  | .or [] => rfl
  | .and [p] => isGrouped_blank p
  | .or [p] => isGrouped_blank p
  | .and (_ :: _ :: _) => rfl
  | .or (_ :: _ :: _) => rfl

mutual

theorem render_blank (style : Placeholder) (bound : Nat) :
    (p : Predicate) → (blank p).render style bound = p.render style bound
  | .const _ => rfl
  | .compare _ _ _ => rfl
  | .isNull _ _ => rfl
  | .inList _ _ => by rw [blank, render, render, List.length_map]
  | .and parts => by rw [blank, render, renderAll_blankAll style bound parts, render]
  | .or parts => by rw [blank, render, renderAll_blankAll style bound parts, render]
  | .not inner => by
    rw [blank, render, isGrouped_blank, render_blank style bound inner, render]

theorem renderAll_blankAll (style : Placeholder) (bound : Nat) :
    (ps : List Predicate) → renderAll style bound (blankAll ps) = renderAll style bound ps
  | [] => rfl
  | p :: ps => by
    rw [blankAll, renderAll, render_blank style bound p, length_values_blank p,
      renderAll_blankAll style _ ps, renderAll]

end

/-- Predicates that differ in their values only have the same text, with as many bound values. -/
theorem fragment_of_blank_eq {p q : Predicate} (h : p.blank = q.blank) (style : Placeholder) :
    (p.fragment style).sql = (q.fragment style).sql ∧
      (p.fragment style).params.length = (q.fragment style).params.length := by
  have htext : p.render style 0 = q.render style 0 := by
    rw [← render_blank, h, render_blank]
  have hlength : p.values.length = q.values.length := by
    rw [← length_values_blank, h, length_values_blank]
  exact ⟨congrArg String.ofList htext, hlength⟩

end Predicate

end AccessFilter
