import AccessFilter.Sql.Predicate
import AccessFilter.Text.Lowercase

/-!
# A predicate as SQL text with bound values

Values never enter the text: each is replaced by a placeholder and bound in order.

* `Placeholder`          numbered (`$1`, `$2`, …) or plain (`?`) placeholders;
* `Predicate.isGrouped`  whether the text stands in parentheses of its own;
* `Predicate.render`     the text, given how many values are bound already;
* `Predicate.values`     the values to bind, from left to right;
* `Predicate.fragment`   text and values together.
-/

namespace AccessFilter

/-- How a database driver writes bound values. -/
inductive Placeholder where
  | numbered
  | question
deriving DecidableEq

namespace Placeholder

/-- The placeholder of the `k`-th bound value, counted from one. -/
def chars (style : Placeholder) (k : Nat) : List Char :=
  match style with
  | .numbered => '$' :: Nat.toDigits 10 k
  | .question => ['?']

def name : Placeholder → String
  | .numbered => "postgres"
  | .question => "question"

/-- What a label of a bound value starts with. -/
def marker : Placeholder → Char
  | .numbered => '$'
  | .question => '?'

/-- The style with one of the known names, in any case; otherwise the name in lower case. -/
def parse (text : String) : Except String Placeholder :=
  let s := Text.asciiLower text
  if s ∈ ["postgres", "postgresql", "numbered"] then .ok .numbered
  else if s ∈ ["question", "qmark", "?"] then .ok .question
  else .error s

def unknownMessage (s : String) : String :=
  "unknown placeholder style '" ++ s ++ "' (expected 'postgres' or 'question')"

end Placeholder

namespace Predicate

/-! ## bound values -/

mutual

/-- The values to bind, from left to right. -/
def values : Predicate → List Value
  | .compare _ _ v => [v]
  | .inList _ vs => vs
  | .and parts => valuesAll parts
  | .or parts => valuesAll parts
  | .not inner => values inner
  | .const _ => []
  | .isNull _ _ => []

def valuesAll : List Predicate → List Value
  | [] => []
  | p :: ps => values p ++ valuesAll ps

end

/-! ## text -/

/-- Whether the text of a predicate stands in parentheses of its own: a group of several parts. -/
def isGrouped : Predicate → Bool
  | .and [p] => isGrouped p
  | .or [p] => isGrouped p
  | .and (_ :: _ :: _) => true
  | .or (_ :: _ :: _) => true
  | _ => false

def joinChars (separator : List Char) : List (List Char) → List Char
  | [] => []
  | [t] => t
  | t :: ts => t ++ separator ++ joinChars separator ts

/-- The placeholders of `n` values after `bound` others. -/
def placeholders (style : Placeholder) (bound n : Nat) : List (List Char) :=
  (List.range n).map fun i => style.chars (bound + i + 1)

/-- A group: the given word when empty, its only part, or the parts in parentheses. -/
def groupChars (joiner empty : List Char) : List (List Char) → List Char
  | [] => empty
  | [t] => t
  | ts => '(' :: joinChars joiner ts ++ [')']

mutual

/-- The SQL text of a predicate after `bound` values. -/
def render (style : Placeholder) (bound : Nat) : Predicate → List Char
  | .const true => "TRUE".toList
  | .const false => "FALSE".toList
  | .compare c op _ => c.chars ++ ' ' :: op.sql.toList ++ ' ' :: style.chars (bound + 1)
  | .isNull c false => c.chars ++ " IS NULL".toList
  | .isNull c true => c.chars ++ " IS NOT NULL".toList
  | .inList c vs =>
    c.chars ++ " IN (".toList ++ joinChars ", ".toList (placeholders style bound vs.length) ++ [')']
  | .and parts => groupChars " AND ".toList "TRUE".toList (renderAll style bound parts)
  | .or parts => groupChars " OR ".toList "FALSE".toList (renderAll style bound parts)
  | .not inner =>
    if isGrouped inner then "NOT ".toList ++ render style bound inner
    else "NOT (".toList ++ render style bound inner ++ [')']

def renderAll (style : Placeholder) (bound : Nat) : List Predicate → List (List Char)
  | [] => []
  | p :: ps => render style bound p :: renderAll style (bound + (values p).length) ps

end

end Predicate

/-- SQL text with the values bound to its placeholders, in order. -/
structure Fragment where
  sql : String
  params : List Value

def Predicate.fragment (style : Placeholder) (p : Predicate) : Fragment :=
  ⟨String.ofList (p.render style 0), p.values⟩

end AccessFilter
