import AccessFilter.Files.LoadError
import AccessFilter.Sql.Table

/-!
# Table definitions in YAML

* `TableDefinition.ofNode`  a definition from a node: unknown and repeated fields are refused, and
                            what is missing is noticed at the end;
* `TableSchema.parse`       a checked table from YAML text;
* `TableSchema.load`        a checked table from a file.
-/

namespace AccessFilter

open Yaml (Node Decode Targets)

/-- What is wrong with a file that holds a table definition. -/
abbrev TableError := LoadError TableFault

def TableError.message (e : TableError) : String := LoadError.message TableFault.message e

namespace TableDefinition

/-- A mapping from strings to strings; of a repeated key the last value counts. -/
def readColumns (targets : Targets) (n : Node) : Decode (Fields String) := do
  let fields ← (← targets.pairs n).mapM fun p => do
    let key ← targets.string p.1
    return (key, ← targets.string p.2)
  return Fields.ofList fields

def readPairs (targets : Targets) (table : Option String) (columns : Option (Fields String)) :
    List (Node × Node) → Decode (Option String × Option (Fields String))
  | [] => pure (table, columns)
  | (k, v) :: rest => do
    match ← targets.string k with
    | "table" =>
      if table.isSome then throw (.duplicateField "table")
      readPairs targets (some (← targets.string v)) columns rest
    | "columns" =>
      if columns.isSome then throw (.duplicateField "columns")
      readPairs targets table (some (← readColumns targets v)) rest
    | key => throw (.unknownField key keys)

def ofNode (targets : Targets) (n : Node) : Decode TableDefinition := do
  match ← readPairs targets none none (← targets.pairs n) with
  | (none, _) => throw (.missingField "table")
  | (some _, none) => throw (.missingField "columns")
  | (some table, some columns) => return ⟨table, columns⟩

end TableDefinition

namespace TableSchema

/-- A checked table from YAML text. -/
def parse (text : String) : Except TableError TableSchema :=
  match Yaml.decode TableDefinition.ofNode text with
  | .error e => .error (.yaml e)
  | .ok d =>
    match ofDefinition d with
    | .error e => .error (.refused e)
    | .ok s => .ok s

def load (disk : Disk) (path : String) : Except TableError TableSchema :=
  match disk.text path with
  | .error e => .error (.file e)
  | .ok text => parse text

end TableSchema

end AccessFilter
