import ParamQuery.Filter.Set
import ParamQuery.Order
import ParamQuery.Store.Pattern

/-!
# Statements

The statements that reading and writing make, as data, with their text and the texts that are bound
to its question marks. Names stand in the text between double quotes, values never.

## Main definitions

* `Condition`, `Query`, `Statement` — the statements.
* `Statement.sql`, `Statement.binds` — the text, and the bound texts in the order of their places.
-/

namespace ParamQuery

/-- A name between double quotes, a quote in it written twice. -/
def quoteName (name : String) : String :=
  String.ofList ('"' :: name.toList.flatMap (fun c => if c = '"' then ['"', '"'] else [c]) ++ ['"'])

/-- Question marks for bound texts. -/
def placeholders (count : Nat) : String :=
  Text.joinStrings ", " (List.replicate count "?")

/-- A condition on a row. -/
inductive Condition where
  /-- The text of one of the columns fits a pattern, in any case of letters. -/
  | search (columns : List String) (pattern : String)
  /-- A column compares with a text. -/
  | compare (c : Comparison)
  /-- A column has one of the values. -/
  | oneOf (column : String) (values : List String)
  deriving DecidableEq, Repr

namespace Condition

def sql : Condition → String
  | .search columns _ =>
    "(" ++ Text.joinStrings " OR " (columns.map fun column =>
      "CAST(" ++ quoteName column ++ " AS VARCHAR) ILIKE ? ESCAPE '\\'") ++ ")"
  | .compare c => quoteName c.column ++ " " ++ c.op.sql ++ " ?"
  | .oneOf column values => quoteName column ++ " IN (" ++ placeholders values.length ++ ")"

def binds : Condition → List String
  | .search columns pattern => columns.map fun _ => pattern
  | .compare c => [c.value]
  | .oneOf _ values => values

end Condition

/-- The part of a statement that chooses rows. -/
def whereSql (conditions : List Condition) : String :=
  if conditions.isEmpty then ""
  else " WHERE " ++ Text.joinStrings " AND " (conditions.map Condition.sql)

/-- A column to order by. -/
structure SortKey where
  column : String
  direction : Direction
  deriving DecidableEq, Repr

def SortKey.sql (key : SortKey) : String := quoteName key.column ++ " " ++ key.direction.sql

/-- How many rows to return, and how many to pass over first. -/
structure Page where
  limit : Nat
  offset : Nat
  deriving DecidableEq, Repr

/-- The name of the column that carries the number of all rows chosen. -/
def totalColumn : String := "__restql_total"

/-- A question to one table. -/
structure Query where
  /-- The columns to return; all of them if the list is empty. -/
  columns : List String
  /-- Whether each row also carries the number of all rows chosen. -/
  withTotal : Bool
  table : String
  conditions : List Condition
  order : List SortKey
  page : Option Page
  deriving DecidableEq, Repr

/-- The columns of a question, or a star for all. -/
def projectionSql (columns : List String) : String :=
  if columns.isEmpty then "*" else Text.joinStrings ", " (columns.map quoteName)

def Query.sql (q : Query) : String :=
  "SELECT " ++ projectionSql q.columns ++
    (if q.withTotal then ", COUNT(*) OVER () AS " ++ totalColumn else "") ++
    " FROM " ++ quoteName q.table ++ whereSql q.conditions ++
    " ORDER BY " ++ Text.joinStrings ", " (q.order.map SortKey.sql) ++
    (match q.page with
      | some page => " LIMIT " ++ toString page.limit ++ " OFFSET " ++ toString page.offset
      | none => "")

inductive Statement where
  /-- Rows of a table. -/
  | select (q : Query)
  /-- The number of rows that satisfy conditions. -/
  | count (table : String) (conditions : List Condition)
  /-- A new row with these values, which is returned. -/
  | insert (table : String) (values : List (String × String))
  /-- New values for the rows with a key, which are returned. -/
  | update (table : String) (values : List (String × String)) (keyColumn key : String)
  /-- Takes out the rows with a key. -/
  | delete (table : String) (keyColumn key : String)
  deriving DecidableEq, Repr

namespace Statement

def sql : Statement → String
  | .select q => q.sql
  | .count table conditions =>
    "SELECT COUNT(*) AS n FROM " ++ quoteName table ++ whereSql conditions
  | .insert table values =>
    "INSERT INTO " ++ quoteName table ++ " (" ++
      Text.joinStrings ", " (values.map fun entry => quoteName entry.1) ++
      ") VALUES (" ++ placeholders values.length ++ ") RETURNING *"
  | .update table values keyColumn _ =>
    "UPDATE " ++ quoteName table ++ " SET " ++
      Text.joinStrings ", " (values.map fun entry => quoteName entry.1 ++ " = ?") ++
      " WHERE " ++ quoteName keyColumn ++ " = ? RETURNING *"
  | .delete table keyColumn _ =>
    "DELETE FROM " ++ quoteName table ++ " WHERE " ++ quoteName keyColumn ++ " = ?"

def binds : Statement → List String
  | .select q => q.conditions.flatMap Condition.binds
  | .count _ conditions => conditions.flatMap Condition.binds
  | .insert _ values => values.map Prod.snd
  | .update _ values _ key => values.map Prod.snd ++ [key]
  | .delete _ _ key => [key]

end Statement

/-- The pattern condition of a search: the label column, if there is one, stands in for the first
column. -/
def searchConditions (q : String) (columns : List String) (label : Option String) :
    List Condition :=
  if q.isEmpty then []
  else
    match columns with
    | [] => []
    | first :: rest => [.search (label.getD first :: rest) (Pattern.containing q)]

/-- The conditions of filter buckets. -/
def filterConditions (buckets : FilterBuckets) : List Condition :=
  buckets.conditions.map Condition.compare

end ParamQuery
