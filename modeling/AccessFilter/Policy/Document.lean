import AccessFilter.Files.LoadError
import AccessFilter.Rule.OfNode
import AccessFilter.Yaml.Writer

/-!
# Policy documents

A policy document names itself and holds rules in order. It has a header with a kind, which must be
`Policy`, and metadata with an identifier, which must not be empty.

* `Policy`          a policy document with its metadata;
* `Policy.ofNode`   a document from a node: unknown and repeated fields are refused, and what is
                    missing is noticed at the end;
* `Policy.parse`    a checked document from YAML text;
* `Policy.yaml`     the document as YAML text;
* `Policy.same`     equality of documents.
-/

namespace AccessFilter

open Yaml (Node Decode Targets)

structure PolicyMetadata where
  id : String
  name : Option String := none
  description : Option String := none
  tags : Option (List String) := none
  enabled : Bool := true

structure Policy where
  apiVersion : String
  kind : String
  metadata : PolicyMetadata
  rules : List Rule := []

inductive PolicyFault where
  | wrongKind (found : String)
  | emptyId
deriving DecidableEq

def policyKind : String := "Policy"

def PolicyFault.message : PolicyFault → String
  | .wrongKind found => "expected kind '" ++ policyKind ++ "', found '" ++ found ++ "'"
  | .emptyId => "policy metadata.id must not be empty"

/-- What is wrong with a policy file. -/
abbrev PolicyError := LoadError PolicyFault

def PolicyError.message (e : PolicyError) : String := LoadError.message PolicyFault.message e

/-- A field that must have been given. -/
def required {α : Type} (name : String) : Option α → Decode α
  | some v => pure v
  | none => throw (.missingField name)

/-- A field at a key that may not have been given before. -/
def once {α : Type} (name : String) (before : Option α) (read : Decode α) : Decode (Option α) := do
  if before.isSome then throw (.duplicateField name)
  return some (← read)

/-! ## metadata -/

namespace PolicyMetadata

/-- The metadata as far as its fields have been given. -/
structure Draft where
  id : Option String := none
  name : Option (Option String) := none
  description : Option (Option String) := none
  tags : Option (Option (List String)) := none
  enabled : Option Bool := none

def keys : List String := ["id", "name", "description", "tags", "enabled"]

/-- A list of strings that may be null. -/
def readTags (targets : Targets) (n : Node) : Decode (Option (List String)) := do
  match ← targets.optional n with
  | some n => return some (← (← targets.items n).mapM targets.string)
  | none => return none

def readField (targets : Targets) (d : Draft) (key : String) (n : Node) : Decode Draft := do
  match key with
  | "id" => return { d with id := ← once key d.id (targets.string n) }
  | "name" => return { d with name := ← once key d.name (targets.optionalString n) }
  | "description" =>
    return { d with description := ← once key d.description (targets.optionalString n) }
  | "tags" => return { d with tags := ← once key d.tags (readTags targets n) }
  | "enabled" => return { d with enabled := ← once key d.enabled (targets.flag n) }
  | _ => throw (.unknownField key keys)

def ofNode (targets : Targets) (n : Node) : Decode PolicyMetadata := do
  let d ← (← targets.pairs n).foldlM
    (fun d p => do readField targets d (← targets.string p.1) p.2) {}
  return {
    id := ← required "id" d.id
    name := d.name.getD none
    description := d.description.getD none
    tags := d.tags.getD none
    enabled := d.enabled.getD true }

def optionalValue : Option String → Value
  | some s => .string s
  | none => .null

/-- Metadata as an object with all its fields. -/
def toValue (m : PolicyMetadata) : Value :=
  .object [("id", .string m.id), ("name", optionalValue m.name),
    ("description", optionalValue m.description),
    ("tags", match m.tags with
      | some tags => .array (tags.map .string)
      | none => .null),
    ("enabled", .bool m.enabled)]

end PolicyMetadata

/-! ## documents -/

namespace Policy

/-- The document as far as its fields have been given. -/
structure Draft where
  apiVersion : Option String := none
  kind : Option String := none
  metadata : Option PolicyMetadata := none
  rules : Option (List Rule) := none

def keys : List String := ["apiVersion", "kind", "metadata", "rules"]

def readRules (targets : Targets) (n : Node) : Decode (List Rule) := do
  (← targets.items n).mapM (Rule.ofNode targets)

def readField (targets : Targets) (d : Draft) (key : String) (n : Node) : Decode Draft := do
  match key with
  | "apiVersion" => return { d with apiVersion := ← once key d.apiVersion (targets.string n) }
  | "kind" => return { d with kind := ← once key d.kind (targets.string n) }
  | "metadata" =>
    return { d with metadata := ← once key d.metadata (PolicyMetadata.ofNode targets n) }
  | "rules" => return { d with rules := ← once key d.rules (readRules targets n) }
  | _ => throw (.unknownField key keys)

def ofNode (targets : Targets) (n : Node) : Decode Policy := do
  let d ← (← targets.pairs n).foldlM
    (fun d p => do readField targets d (← targets.string p.1) p.2) {}
  return {
    apiVersion := ← required "apiVersion" d.apiVersion
    kind := ← required "kind" d.kind
    metadata := ← required "metadata" d.metadata
    rules := d.rules.getD [] }

/-- Refuse a document of another kind or without an identifier. -/
def check (p : Policy) : Except PolicyFault Policy :=
  if p.kind ≠ policyKind then .error (.wrongKind p.kind)
  else if p.metadata.id.isEmpty then .error .emptyId
  else .ok p

/-- A checked document from YAML text. -/
def parse (text : String) : Except PolicyError Policy :=
  match Yaml.decode ofNode text with
  | .error e => .error (.yaml e)
  | .ok p =>
    match p.check with
    | .error e => .error (.refused e)
    | .ok p => .ok p

/-- The document as an object with all its fields. -/
def toValue (p : Policy) : Value :=
  .object [("apiVersion", .string p.apiVersion), ("kind", .string p.kind),
    ("metadata", p.metadata.toValue), ("rules", .array (p.rules.map Rule.toValue))]

def yaml (p : Policy) : String := p.toValue.yaml

def sameRules : List Rule → List Rule → Bool
  | [], [] => true
  | r :: rs, s :: ss => r.same s && sameRules rs ss
  | _, _ => false

def same (p q : Policy) : Bool :=
  p.apiVersion == q.apiVersion && p.kind == q.kind && p.metadata.id == q.metadata.id &&
    p.metadata.name == q.metadata.name && p.metadata.description == q.metadata.description &&
    p.metadata.tags == q.metadata.tags && p.metadata.enabled == q.metadata.enabled &&
    sameRules p.rules q.rules

end Policy

end AccessFilter
