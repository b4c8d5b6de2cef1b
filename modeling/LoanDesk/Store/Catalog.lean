import LoanDesk.Refusal

/-
# The names in a database

A database knows its tables and their indexes by name, and no two of them may share
one, upper and lower case alike. A table is made at its first use, and with it an
index whose name is made from that of the table; so a table can be in the way of
another table's index, and an index in the way of a table. What has been made stays,
even if the other half fails.

Key definitions: `Store.tableName`, `Store.indexName`, `Store.Catalog`,
`Store.Catalog.withTable`, `Store.Catalog.withIndex`, `Store.Catalog.request`.
-/

namespace LoanDesk
namespace Store

/-- The words of the database's language that cannot name a table. -/
def reservedWords : List String := [
  "ADD", "ALL", "ALTER", "AND", "AS", "AUTOINCREMENT", "BETWEEN", "CASE", "CHECK", "COLLATE",
  "COMMIT", "CONSTRAINT", "CREATE", "DEFAULT", "DEFERRABLE", "DELETE", "DISTINCT", "DROP", "ELSE",
  "ESCAPE", "EXCEPT", "EXISTS", "FOREIGN", "FROM", "GROUP", "HAVING", "IN", "INDEX", "INSERT",
  "INTERSECT", "INTO", "IS", "ISNULL", "JOIN", "LIMIT", "NOT", "NOTHING", "NOTNULL", "NULL", "ON",
  "OR", "ORDER", "PRIMARY", "REFERENCES", "RETURNING", "SELECT", "SET", "TABLE", "THEN", "TO",
  "TRANSACTION", "UNION", "UNIQUE", "UPDATE", "USING", "VALUES", "WHEN", "WHERE"]

/-- The character may start a name. -/
def startsName (c : Char) : Bool :=
  c.isAlpha || c == '_' || 128 ≤ c.toNat

/-- The character may follow in a name. -/
def continuesName (c : Char) : Bool :=
  startsName c || c.isDigit || c == '$'

/-- The name in small letters, as far as they are plain. -/
def foldName (s : String) : String :=
  String.ofList (s.toList.map Char.toLower)

/-- The table that a name means. -/
def tableName (s : String) : Except Fault String :=
  match s.toList with
  | [] => .error .statement
  | c :: rest =>
    if (c :: rest).any fun d => d.toNat == 0 then .error .binding
    else if !(startsName c && rest.all continuesName) then .error .statement
    else if reservedWords.any fun w => foldName w == foldName s then .error .statement
    else if "sqlite_".toList.isPrefixOf (foldName s).toList then .error .statement
    else .ok (foldName s)

/-- The name of the index of a table. -/
def indexName (table : String) : String :=
  "idx_" ++ table ++ "_created_at"

/-- The names of a database's tables and indexes. -/
structure Catalog where
  tables : List String := []
  indexes : List String := []
deriving DecidableEq, Repr

namespace Catalog

/-- A table of this name is there or can be made. A word that may stand before a table's name
where one is made reads differently where the table is looked up again. -/
def tableFlaw? (c : Catalog) (table : String) : Option Fault :=
  if c.tables.contains table then none
  else if c.indexes.contains table then some .statement
  else if table = "if" then some .brokenCatalog
  else none

/-- The names with one more at the end, unless it is among them. -/
def listing (names : List String) (name : String) : List String :=
  if names.contains name then names else names ++ [name]

/-- The catalog with a table. -/
def withTable (c : Catalog) (table : String) : Catalog :=
  { c with tables := listing c.tables table }

/-- The catalog with an index. -/
def withIndex (c : Catalog) (index : String) : Catalog :=
  { c with indexes := listing c.indexes index }

/-- Asks for a table: whether it can be used, and what has been made on the way
(`SQLiteStorage._ensure_table`). -/
def request (c : Catalog) (table : String) : Except Fault Unit × Catalog :=
  match c.tableFlaw? table with
  | some f => (.error f, c)
  | none =>
    let c := c.withTable table
    if c.tables.contains (indexName table) then (.error .statement, c)
    else (.ok (), c.withIndex (indexName table))

end Catalog
end Store
end LoanDesk
