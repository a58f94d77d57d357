import AccessFilter.Json.Shape
import AccessFilter.Yaml.Node.Grammar
import AccessFilter.Yaml.Scalar.Meaning

/-!
# Reading typed data from nodes

Readers follow the text, so the first fault in reading order counts; a place where the document
breaks off is a fault like any other. Aliases are followed where they stand, a bounded number of
times, and a free value may be nested up to a bounded depth.

* `Yaml.Fault`            why a document cannot be read;
* `Yaml.Decode`           a reader, which counts the aliases it may still follow;
* `Yaml.Targets`          the nodes that aliases stand for;
* `Targets.string`, `flag`, `items`, `pairs`, `optional`, `freeValue`  readers of one node;
* `Yaml.decode`           reads a whole text.
-/

namespace AccessFilter.Yaml

inductive Fault where
  | malformed
  | missingField (name : String)
  | unknownField (name : String) (expected : List String)
  | duplicateField (name : String)
deriving DecidableEq

/-- The wording of a fault; that of malformed text is left open. -/
def Fault.message? : Fault → Option String
  | .malformed => none
  | .missingField name => some (Json.ShapeError.missingField name).message
  | .unknownField name expected => some (Json.ShapeError.unknownField name expected).message
  | .duplicateField name => some (Json.ShapeError.duplicateField name).message

/-- A reader: the state is the number of aliases that may still be followed. -/
abbrev Decode (α : Type) := StateT Nat (Except Fault) α

/-- The nodes that aliases stand for, the latest first. -/
abbrev Targets := List (Nat × Node)

def maxDepth : Nat := 128

namespace Targets

def ofRoot (root : Node) : Targets := root.anchored.reverse

def find? (targets : Targets) (a : Nat) : Option Node := targets.lookup a

/-- The node that is meant: an alias stands for its target. -/
def follow (targets : Targets) : Node → Decode Node
  | .alias a => do
    match ← get with
    | 0 => throw .malformed
    | left + 1 =>
      set left
      match targets.find? a with
      | some n => return n
      | none => throw .malformed
  | n => pure n

/-- The text of a scalar, whatever its style and tag. -/
def string (targets : Targets) (n : Node) : Decode String := do
  match ← targets.follow n with
  | .scalar _ _ _ text => return text
  | _ => throw .malformed

/-- A boolean: a plain scalar, or a literal one with the tag of booleans. -/
def flag (targets : Targets) (n : Node) : Decode Bool := do
  match ← targets.follow n with
  | .scalar _ tag style text =>
    if style == .plain || (style == .literal && tag == some .bool) then
      match boolWord? text with
      | some b => return b
      | none => throw .malformed
    else throw .malformed
  | _ => throw .malformed

/-- Whether a node is an empty plain scalar, which stands for an empty collection too. -/
def isNothing : Node → Bool
  | .scalar _ _ .plain "" => true
  | _ => false

def items (targets : Targets) (n : Node) : Decode (List Node) := do
  match ← targets.follow n with
  | .sequence _ _ items => return items
  | n => if isNothing n then return [] else throw .malformed

def pairs (targets : Targets) (n : Node) : Decode (List (Node × Node)) := do
  match ← targets.follow n with
  | .mapping _ _ pairs => return pairs
  | n => if isNothing n then return [] else throw .malformed

/-- A node that may be null, which is then absent. -/
def optional (targets : Targets) (n : Node) : Decode (Option Node) := do
  match ← targets.follow n with
  | .scalar anchor tag .plain text =>
    let present := some (Node.scalar anchor tag .plain text)
    match tag with
    | none => return if text.isEmpty || isNullWord text then none else present
    | some .null => if isNullWord text then return none else throw .malformed
    | some _ => return present
  | .broken => throw .malformed
  | n => return some n

def optionalString (targets : Targets) (n : Node) : Decode (Option String) := do
  match ← targets.optional n with
  | some n => return some (← targets.string n)
  | none => return none

/-! ## values of any kind -/

def scalarValue (tag : Option Tag) (style : ScalarStyle) (text : String) : Option Value :=
  match tag with
  | some t => Value.ofTagged t (style == .plain) text
  | none => if style == .plain then Value.ofPlain text else some (.string text)

/-- A value of any kind whose collections are nested at most `depth` deep. -/
def freeValue (targets : Targets) (depth : Nat) (n : Node) : Decode Value := do
  match ← targets.follow n with
  | .scalar _ tag style text =>
    match scalarValue tag style text with
    | some v => return v
    | none => throw .malformed
  | .sequence _ tag items =>
    match depth with
    | 0 => throw .malformed
    | depth + 1 =>
      if tag == some .own then throw .malformed
      else return .array (← items.mapM (freeValue targets depth))
  | .mapping _ tag pairs =>
    match depth with
    | 0 => throw .malformed
    | depth + 1 =>
      if tag == some .own then throw .malformed
      else
        let fields ← pairs.mapM fun p => do
          let key ← targets.string p.1
          return (key, ← freeValue targets depth p.2)
        return .object (Fields.ofList fields)
  | _ => throw .malformed

def freeFields (targets : Targets) (depth : Nat) (n : Node) : Decode (Fields Value) := do
  let fields ← (← targets.pairs n).mapM fun p => do
    let key ← targets.string p.1
    return (key, ← targets.freeValue depth p.2)
  return Fields.ofList fields

end Targets

/-! ## passing over a node -/

mutual

/-- Whether a node is complete. -/
def Node.isWhole : Node → Bool
  | .scalar _ _ _ _ => true
  | .alias _ => true
  | .sequence _ _ items => areWhole items
  | .mapping _ _ pairs => pairsAreWhole pairs
  | .broken => false

def areWhole : List Node → Bool
  | [] => true
  | n :: ns => n.isWhole && areWhole ns

def pairsAreWhole : List (Node × Node) → Bool
  | [] => true
  | (k, v) :: ps => k.isWhole && v.isWhole && pairsAreWhole ps

end

def skip (n : Node) : Decode Unit := if n.isWhole then pure () else throw .malformed

/-! ## whole texts -/

/-- Read a text. It must hold one document; that is looked at last. -/
def decode {α : Type} (reader : Targets → Node → Decode α) (text : String) : Except Fault α :=
  let document := Document.ofText text
  match (reader (.ofRoot document.root) document.root).run (100 * document.root.size) with
  | .error e => .error e
  | .ok (v, _) => if document.complete then .ok v else .error .malformed

end AccessFilter.Yaml
