/-!
# Columns and quoted identifiers

* `Sql.quote`        an identifier between double quotes, a quote inside written twice;
* `Column`           a column of a table;
* `Column.quoted`    both names quoted, with a dot between them.
-/

namespace AccessFilter

namespace Sql

/-- A character of a quoted identifier: a quote is written twice. -/
def quoteChar (c : Char) : List Char := if c = '"' then ['"', '"'] else [c]

def quoteChars (name : List Char) : List Char := '"' :: name.flatMap quoteChar ++ ['"']

def quote (name : String) : String := String.ofList (quoteChars name.toList)

end Sql

structure Column where
  table : String
  name : String
deriving DecidableEq

namespace Column

def chars (c : Column) : List Char :=
  Sql.quoteChars c.table.toList ++ '.' :: Sql.quoteChars c.name.toList

def quoted (c : Column) : String := String.ofList c.chars

end Column

end AccessFilter
