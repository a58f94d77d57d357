import AccessFilter.Rule.Read
import AccessFilter.Yaml.Decode

/-!
# Rules in YAML documents

A rule is a mapping; there is no list form. A known field may come once, unknown ones are passed
over. Conditions and reason may be null, which is the same as leaving them out.

* `Rule.ofNode`   a rule from a node.
-/

namespace AccessFilter.Rule

open Yaml (Node Decode Targets)

/-- How deep collections may be nested in the fields of a rule: it is itself a mapping in a
sequence in the mapping of the document. -/
def valueDepth : Nat := Yaml.maxDepth - 3

def readOneOrMany (targets : Targets) (n : Node) : Decode (List String) := do
  match oneOrMany? (← targets.freeValue valueDepth n) with
  | some ss => return ss
  | none => throw .malformed

def readConditions (targets : Targets) (n : Node) : Decode (Option Conditions) := do
  match ← targets.optional n with
  | some n => return some (← targets.freeFields (valueDepth - 1) n)
  | none => return none

def readNode (targets : Targets) (r : Rule) (field : Field) (n : Node) : Decode Rule := do
  match field with
  | .action => return { r with actions := ← readOneOrMany targets n }
  | .subject => return { r with subjects := ← readOneOrMany targets n }
  | .conditions => return { r with conditions := ← readConditions targets n }
  | .inverted => return { r with denies := ← targets.flag n }
  | .reason => return { r with reason := ← targets.optionalString n }

def readPairs (targets : Targets) (seen : List Field) (r : Rule) :
    List (Node × Node) → Decode Rule
  | [] => pure r
  | (k, v) :: rest => do
    match Field.ofKey? (← targets.string k) with
    | some field =>
      if field ∈ seen then throw (.duplicateField field.key)
      readPairs targets (field :: seen) (← readNode targets r field v) rest
    | none =>
      Yaml.skip v
      readPairs targets seen r rest

def ofNode (targets : Targets) (n : Node) : Decode Rule := do
  readPairs targets [] {} (← targets.pairs n)

end AccessFilter.Rule
