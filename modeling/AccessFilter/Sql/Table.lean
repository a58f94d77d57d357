import AccessFilter.Json.Shape
import AccessFilter.Sql.Column

/-!
# Schemas: which column a field of a rule stands for

* `Schema`               a look-up from field names to columns;
* `TableDefinition`      a table name with the column names of its fields, as it is written down;
* `TableSchema`          a checked definition: every field with its column of the one table;
* `ColumnMap`            a plain list of fields with columns of any table;
* `TableDefinition.ofValue`  a definition from a value.
-/

namespace AccessFilter

/-- Finds the column a field stands for. -/
abbrev Schema := String → Option Column

/-- A table as it is written down: the column name of each field. -/
structure TableDefinition where
  table : String
  columns : Fields String

inductive TableFault where
  | emptyName
  | noColumns (table : String)

def TableFault.message : TableFault → String
  | .emptyName => "table name must not be empty"
  | .noColumns table => "table '" ++ table ++ "' declares no columns"

/-- A table with the columns of its fields. -/
structure TableSchema where
  table : String
  columns : Fields Column

namespace TableSchema

def empty (table : String) : TableSchema := ⟨table, []⟩

def withColumn (s : TableSchema) (field name : String) : TableSchema :=
  { s with columns := Fields.put field ⟨s.table, name⟩ s.columns }

def withColumns (s : TableSchema) (fields : List (String × String)) : TableSchema :=
  fields.foldl (fun s f => s.withColumn f.1 f.2) s

/-- The checked table of a definition. -/
def ofDefinition (d : TableDefinition) : Except TableFault TableSchema :=
  if d.table.isEmpty then .error .emptyName
  else if d.columns.isEmpty then .error (.noColumns d.table)
  else .ok ((empty d.table).withColumns d.columns)

def lookup (s : TableSchema) : Schema := fun field => Fields.find? field s.columns

end TableSchema

/-- Fields with columns of any table. -/
abbrev ColumnMap := Fields Column

def ColumnMap.lookup (m : ColumnMap) : Schema := fun field => Fields.find? field m

/-! ## shown in full -/

namespace Inspect

def column (c : Column) : String :=
  "SqlColumn \x7b table: " ++ Text.inspect c.table ++ ", name: " ++ Text.inspect c.name ++ " \x7d"

def columns (fs : Fields Column) : String :=
  "\x7b" ++ ", ".intercalate (fs.map fun f => Text.inspect f.1 ++ ": " ++ column f.2) ++ "\x7d"

def tableSchema (s : TableSchema) : String :=
  "TableSchema \x7b table: " ++ Text.inspect s.table ++ ", columns: " ++ columns s.columns ++ " \x7d"

end Inspect

/-! ## reading a definition -/

namespace TableDefinition

open Json (ShapeError Found)

def keys : List String := ["table", "columns"]

def stringOf : Value → Except ShapeError String
  | .string s => .ok s
  | v => .error (.invalidType (Found.ofValue v) "a string")

def stringFields : List (String × Value) → Except ShapeError (Fields String)
  | [] => .ok []
  | (k, v) :: rest => do return (k, ← stringOf v) :: (← stringFields rest)

/-- An object whose fields all hold strings. -/
def columnsOf : Value → Except ShapeError (Fields String)
  | .object fs => stringFields fs
  | v => .error (.invalidType (Found.ofValue v) "a map")

/-- The fields of an object, one after the other; unknown ones are refused. -/
def readFields (table : Option String) (columns : Option (Fields String)) :
    List (String × Value) → Except ShapeError (Option String × Option (Fields String))
  | [] => .ok (table, columns)
  | (k, v) :: rest =>
    if k = "table" then do readFields (some (← stringOf v)) columns rest
    else if k = "columns" then do readFields table (some (← columnsOf v)) rest
    else .error (.unknownField k keys)

def ofParts : Option String × Option (Fields String) → Except ShapeError TableDefinition
  | (none, _) => .error (.missingField "table")
  | (some _, none) => .error (.missingField "columns")
  | (some table, some columns) => .ok ⟨table, columns⟩

/-- A definition from a value: an object, or a list of the table name and the columns. -/
def ofValue : Value → Except ShapeError TableDefinition
  | .object fs => do ofParts (← readFields none none fs)
  | .array [] => .error (.invalidLength 0 "struct TableDef with 2 elements")
  | .array [t] => do
    let _ ← stringOf t
    throw (.invalidLength 1 "struct TableDef with 2 elements")
  | .array (t :: cs :: rest) => do
    let table ← stringOf t
    let columns ← columnsOf cs
    if rest.isEmpty then return ⟨table, columns⟩
    else throw (.invalidLength (rest.length + 2) "fewer elements in array")
  | v => .error (.invalidType (Found.ofValue v) "struct TableDef")

end TableDefinition

end AccessFilter
