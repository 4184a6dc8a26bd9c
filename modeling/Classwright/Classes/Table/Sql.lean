import Classwright.Schema.Property

namespace Classwright.Classes.Table

open Schema

def keywords : List String := [
  "ABORT", "ACTION", "ADD", "AFTER", "ALL", "ALTER", "ALWAYS", "ANALYZE", "AND", "AS", "ASC",
  "ATTACH", "AUTOINCREMENT", "BEFORE", "BEGIN", "BETWEEN", "BY", "CASCADE", "CASE", "CAST",
  "CHECK", "COLLATE", "COLUMN", "COMMIT", "CONFLICT", "CONSTRAINT", "CREATE", "CROSS",
  "CURRENT", "CURRENT_DATE", "CURRENT_TIME", "CURRENT_TIMESTAMP", "DATABASE", "DEFAULT",
  "DEFERRABLE", "DEFERRED", "DELETE", "DESC", "DETACH", "DISTINCT", "DO", "DROP", "EACH",
  "ELSE", "END", "ESCAPE", "EXCEPT", "EXCLUDE", "EXCLUSIVE", "EXISTS", "EXPLAIN", "FAIL",
  "FILTER", "FIRST", "FOLLOWING", "FOR", "FOREIGN", "FROM", "FULL", "GENERATED", "GLOB",
  "GROUP", "GROUPS", "HAVING", "IF", "IGNORE", "IMMEDIATE", "IN", "INDEX", "INDEXED",
  "INITIALLY", "INNER", "INSERT", "INSTEAD", "INTERSECT", "INTO", "IS", "ISNULL", "JOIN",
  "KEY", "LAST", "LEFT", "LIKE", "LIMIT", "MATCH", "MATERIALIZED", "NATURAL", "NO", "NOT",
  "NOTHING", "NOTNULL", "NULL", "NULLS", "OF", "OFFSET", "ON", "OR", "ORDER", "OTHERS",
  "OUTER", "OVER", "PARTITION", "PLAN", "PRAGMA", "PRECEDING", "PRIMARY", "QUERY", "RAISE",
  "RANGE", "RECURSIVE", "REFERENCES", "REGEXP", "REINDEX", "RELEASE", "RENAME", "REPLACE",
  "RESTRICT", "RETURNING", "RIGHT", "ROLLBACK", "ROW", "ROWS", "SAVEPOINT", "SELECT", "SET",
  "TABLE", "TEMP", "TEMPORARY", "THEN", "TIES", "TO", "TRANSACTION", "TRIGGER", "UNBOUNDED",
  "UNION", "UNIQUE", "UPDATE", "USING", "VACUUM", "VALUES", "VIEW", "VIRTUAL", "WHEN",
  "WHERE", "WINDOW", "WITH", "WITHOUT"]

def sqlIdentifier (name : String) : String :=
  if keywords.contains name.toUpper then "\"" ++ name ++ "\"" else name

-- The SQL type of a scalar; other types have none.
def columnType? (isEnum : Bool) (typeName : String) : Option String :=
  if isEnum then some "TEXT"
  else (Primitive.ofName? typeName).map fun
    | .string => "TEXT"
    | .number => "REAL"
    | .integer => "INTEGER"
    | .boolean => "INTEGER"

def columnDefinition (name sqlType : String) (isId required : Bool) : String :=
  sqlIdentifier name ++ " " ++ sqlType ++
    if isId then " NOT NULL PRIMARY KEY" else if required then " NOT NULL" else ""

-- What the rows of a query have in common; each condition has one parameter.
inductive Condition where
  | holds (column : String)
  -- The id is one of those joined into the parameter.
  | listed
  -- The row of another table whose id is the parameter names this row in a column.
  | namedBy (table column : String)
  deriving Repr, DecidableEq

namespace Condition

def text : Condition → String
  | .holds column => sqlIdentifier column ++ " = ?"
  | .listed => "instr(';' || ? || ';', ';' || " ++ idName ++ " || ';') > 0"
  | .namedBy table column =>
    idName ++ " IN (SELECT " ++ sqlIdentifier column ++ " FROM " ++ sqlIdentifier table ++
      " WHERE " ++ idName ++ " = ?)"

end Condition

namespace Sql

def createTable (table : String) (definitions : List String) : String :=
  "CREATE TABLE IF NOT EXISTS " ++ sqlIdentifier table ++
    " (" ++ ", ".intercalate definitions ++ ")"

def insertOrReplace (table : String) (columns : List String) : String :=
  "INSERT OR REPLACE INTO " ++ sqlIdentifier table ++ " (" ++
    ", ".intercalate (columns.map sqlIdentifier) ++ ") VALUES (" ++
    ", ".intercalate (columns.map fun _ => "?") ++ ")"

def deleteWhere (table : String) (condition : Condition) : String :=
  "DELETE FROM " ++ sqlIdentifier table ++ " WHERE " ++ condition.text

def selectAll (table : String) : String := "SELECT * FROM " ++ sqlIdentifier table

def selectWhere (table : String) : String := selectAll table ++ " WHERE "

end Sql

end Classwright.Classes.Table
