import AccessFilter.Yaml.Tag
import AccessFilter.Yaml.Token

/-!
# Nodes of a YAML document

* `Yaml.Node`            scalars, sequences and mappings with their anchors and tags, and aliases. A
                         document that breaks off has the node `broken` at that place, and nothing
                         follows;
* `Yaml.Node.anchored`   the nodes with an anchor, in the order of the text;
* `Yaml.Node.size`       the number of steps in which the text gives the node;
* `Yaml.Document`        the root of a text, and whether nothing else is in the text.
-/

namespace AccessFilter.Yaml

inductive Node where
  | scalar (anchor : Option Nat) (tag : Option Tag) (style : ScalarStyle) (text : String)
  | alias (target : Nat)
  | sequence (anchor : Option Nat) (tag : Option Tag) (items : List Node)
  | mapping (anchor : Option Nat) (tag : Option Tag) (pairs : List (Node × Node))
  | broken

instance : Inhabited Node := ⟨.broken⟩

namespace Node

/-- What stands where nothing is written. -/
def empty : Node := .scalar none none .plain ""

/-- Whether a document breaks off at this node. -/
def isBroken : Node → Bool
  | .broken => true
  | _ => false

def withAnchor (anchor : Option Nat) (n : Node) : List (Nat × Node) :=
  match anchor with
  | some a => [(a, n)]
  | none => []

mutual

/-- The nodes with an anchor, in the order of the text. -/
def anchored : Node → List (Nat × Node)
  | .scalar anchor tag style text => withAnchor anchor (.scalar anchor tag style text)
  | .sequence anchor tag items =>
    withAnchor anchor (.sequence anchor tag items) ++ anchoredItems items
  | .mapping anchor tag pairs =>
    withAnchor anchor (.mapping anchor tag pairs) ++ anchoredPairs pairs
  | .alias _ => []
  | .broken => []

def anchoredItems : List Node → List (Nat × Node)
  | [] => []
  | n :: ns => anchored n ++ anchoredItems ns

def anchoredPairs : List (Node × Node) → List (Nat × Node)
  | [] => []
  | (k, v) :: ps => anchored k ++ anchored v ++ anchoredPairs ps

end

mutual

/-- The number of steps in which a text gives the node: one for a scalar or an alias, and one each
for the start and the end of a collection. -/
def size : Node → Nat
  | .scalar _ _ _ _ => 1
  | .alias _ => 1
  | .sequence _ _ items => 1 + sizeItems items
  | .mapping _ _ pairs => 1 + sizePairs pairs
  | .broken => 0

/-- The steps of the items of a sequence and of its end, which a break leaves out. -/
def sizeItems : List Node → Nat
  | [] => 1
  | .broken :: _ => 0
  | n :: ns => size n + sizeItems ns

/-- The steps of the pairs of a mapping and of its end, which a break leaves out. -/
def sizePairs : List (Node × Node) → Nat
  | [] => 1
  | (.broken, _) :: _ => 0
  | (k, .broken) :: _ => size k
  | (k, v) :: ps => size k + size v + sizePairs ps

end

end Node

/-- The root of a text, and whether nothing but the end follows. -/
structure Document where
  root : Node
  complete : Bool

end AccessFilter.Yaml
