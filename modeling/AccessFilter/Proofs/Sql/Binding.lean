import AccessFilter.Proofs.Sql.Rendered

/-!
# Text and bound values in one pass

A driver binds a value when it comes to it, and the placeholder has the number of the values bound by
then. Text and values of a fragment are those of such a pass.

* `Placeholder.bind`      a value bound behind others;
* `Predicate.pass`        the text of a predicate, and the values bound after it;
* `Predicate.pass_eq`     the pass renders the text and binds the values, each by itself;
* `fragment_eq_pass`      so it is of a whole fragment.
-/

namespace AccessFilter

namespace Placeholder

variable (style : Placeholder)

/-- The placeholder of a value that is bound behind others, and the values bound then. -/
def bind (bound : List Value) (v : Value) : List Char × List Value :=
  (style.chars (bound.length + 1), bound ++ [v])

def bindAll (bound : List Value) : List Value → List (List Char) × List Value
  | [] => ([], bound)
  | v :: vs =>
    let (slot, bound) := style.bind bound v
    let (slots, bound) := bindAll bound vs
    (slot :: slots, bound)

theorem bindAll_eq (bound vs : List Value) : style.bindAll bound vs
    = (Predicate.placeholders style bound.length vs.length, bound ++ vs) := by
  induction vs generalizing bound with
  | nil => rw [bindAll, List.append_nil]; rfl
  | cons v vs ih =>
    rw [bindAll, bind]
    dsimp only
    rw [ih, List.length_cons, Sql.placeholders_cons, List.length_append, List.append_assoc]
    rfl

end Placeholder

namespace Predicate

mutual

/-- The text of a predicate behind some bound values, and the values bound after it. -/
def pass (style : Placeholder) (bound : List Value) : Predicate → List Char × List Value
  | .const true => ("TRUE".toList, bound)
  | .const false => ("FALSE".toList, bound)
  | .compare c op v =>
    let (slot, bound) := style.bind bound v
    (c.chars ++ ' ' :: op.sql.toList ++ ' ' :: slot, bound)
  | .isNull c false => (c.chars ++ " IS NULL".toList, bound)
  | .isNull c true => (c.chars ++ " IS NOT NULL".toList, bound)
  | .inList c vs =>
    let (slots, bound) := style.bindAll bound vs
    (c.chars ++ " IN (".toList ++ joinChars ", ".toList slots ++ [')'], bound)
  | .and parts =>
    let (texts, bound) := passAll style bound parts
    (groupChars " AND ".toList "TRUE".toList texts, bound)
  | .or parts =>
    let (texts, bound) := passAll style bound parts
    (groupChars " OR ".toList "FALSE".toList texts, bound)
  | .not inner =>
    let (body, bound) := pass style bound inner
    (if isGrouped inner then "NOT ".toList ++ body else "NOT (".toList ++ body ++ [')'], bound)

def passAll (style : Placeholder) (bound : List Value) :
    List Predicate → List (List Char) × List Value
  | [] => ([], bound)
  | p :: ps =>
    let (text, bound) := pass style bound p
    let (texts, bound) := passAll style bound ps
    (text :: texts, bound)

end

section
variable (style : Placeholder)

mutual

theorem pass_eq (bound : List Value) : (p : Predicate) →
    pass style bound p = (render style bound.length p, bound ++ p.values)
  | .const true => by rw [pass, render, values, List.append_nil]
  | .const false => by rw [pass, render, values, List.append_nil]
  | .compare c op v => by
    rw [pass, render, values]
    rfl
  | .isNull c false => by rw [pass, render, values, List.append_nil]
  | .isNull c true => by rw [pass, render, values, List.append_nil]
  | .inList c vs => by rw [pass, style.bindAll_eq, render, values]
  | .and parts => by rw [pass, passAll_eq bound parts, render, values]
  | .or parts => by rw [pass, passAll_eq bound parts, render, values]
  | .not inner => by rw [pass, pass_eq bound inner, render, values]

theorem passAll_eq (bound : List Value) : (ps : List Predicate) →
    passAll style bound ps = (renderAll style bound.length ps, bound ++ valuesAll ps)
  | [] => by rw [passAll, renderAll, valuesAll, List.append_nil]
  | p :: ps => by
    rw [passAll, pass_eq bound p]
    dsimp only
    rw [passAll_eq (bound ++ p.values) ps, renderAll, valuesAll, List.length_append,
      List.append_assoc]

end

end

end Predicate

/-- **One pass renders the text and binds the values.** -/
theorem fragment_eq_pass (style : Placeholder) (p : Predicate) :
    p.fragment style = ⟨String.ofList (p.pass style []).1, (p.pass style []).2⟩ := by
  rw [Predicate.pass_eq]
  rfl

end AccessFilter
