import ParamQuery.Store.Statement
import ParamQuery.Store.Table

/-!
# Carrying out statements

What statements answer and what they change. All names of a statement are looked up before any row
is looked at; a bound text is read as a value of its column only when a row gets to it.

## Main definitions

* `Query.run` — the rows of a question.
* `Statement.run` — the answer of a statement and the database after it.
-/

namespace ParamQuery

/-- A condition with the places of its columns. -/
inductive Test where
  | search (indices : List Nat) (pattern : String)
  | compare (index : Nat) (type : ColumnType) (op : CompareOp) (value : String)
  | oneOf (index : Nat) (type : ColumnType) (values : List String)
  deriving DecidableEq, Repr

namespace Test

/-- Whether a row passes. -/
def holds : Test → Row → Except EngineFault Bool
  | .search indices pattern, row =>
    .ok (indices.any fun index =>
      (row.cell index).searchText?.any (Pattern.acceptsFolded pattern.toList))
  | .compare index type op value, row => do
    let bound ← type.read value
    pure ((row.cell index).satisfies op bound)
  | .oneOf index type values, row => do
    let cells ← values.mapM type.read
    pure (cells.any ((row.cell index).satisfies .eq))

/-- Whether a row passes all tests; the first that it fails ends the matter. -/
def allHold : List Test → Row → Except EngineFault Bool
  | [], _ => .ok true
  | test :: rest, row => do
    if ← test.holds row then allHold rest row else pure false

/-- The rows that pass all tests. -/
def select (tests : List Test) : List Row → Except EngineFault (List Row)
  | [] => .ok []
  | row :: rest => do
    let passes ← allHold tests row
    let rest ← select tests rest
    pure (if passes then row :: rest else rest)

end Test

namespace Table

/-- A condition with the places of its columns in a table. -/
def test (t : Table) : Condition → Except EngineFault Test
  | .search columns pattern => do
    let found ← columns.mapM t.column
    pure (.search (found.map Prod.fst) pattern)
  | .compare c => do
    let (index, column) ← t.column c.column
    pure (.compare index column.type c.op c.value)
  | .oneOf name values => do
    let (index, column) ← t.column name
    pure (.oneOf index column.type values)

/-- The rows of a table that satisfy conditions. -/
def matching (t : Table) (conditions : List Condition) : Except EngineFault (List Row) := do
  let tests ← conditions.mapM t.test
  Test.select tests t.rows

end Table

/-! ## Order -/

/-- The place of a column to order by, and whether larger values come first. -/
abbrev SortIndex := Nat × Bool

/-- Whether a row may stand before another one: the first column in which they differ decides. -/
def rowLe : List SortIndex → Row → Row → Bool
  | [], _, _ => true
  | (index, descending) :: rest, a, b =>
    let forward := (a.cell index).le descending (b.cell index)
    let backward := (b.cell index).le descending (a.cell index)
    if forward && backward then rowLe rest a b else forward

/-- Puts a row before the first one that it may stand before. -/
def insertSorted (le : Row → Row → Bool) (row : Row) : List Row → List Row
  | [] => [row]
  | other :: rest =>
    if le row other then row :: other :: rest else other :: insertSorted le row rest

/-- The rows in order; rows that the order does not tell apart keep theirs. -/
def sortRows (le : Row → Row → Bool) (rows : List Row) : List Row :=
  rows.foldr (insertSorted le) []

theorem insertSorted_perm (le : Row → Row → Bool) (row : Row) (rows : List Row) :
    (insertSorted le row rows).Perm (row :: rows) := by
  induction rows with
  | nil => exact .refl _
  | cons other rest ih =>
    unfold insertSorted
    split
    · exact .refl _
    · exact (ih.cons other).trans (.swap row other rest)

/-- Ordering neither drops nor repeats a row. -/
theorem sortRows_perm (le : Row → Row → Bool) (rows : List Row) : (sortRows le rows).Perm rows := by
  induction rows with
  | nil => exact .refl _
  | cons row rest ih => exact (insertSorted_perm le row _).trans (ih.cons row)

/-- The place of a column to order by. The name of the total says nothing about the order, as all
rows have the same total. -/
def Table.sortIndex (t : Table) (withTotal : Bool) (key : SortKey) :
    Except EngineFault (Option SortIndex) :=
  if withTotal && sameName key.column totalColumn then .ok none
  else do
    let (index, _) ← t.column key.column
    pure (some (index, key.direction == .desc))

/-! ## Questions -/

/-- The rows of a page. -/
def Page.slice {α : Type} (page : Page) (rows : List α) : List α :=
  (rows.drop page.offset).take page.limit

/-- Refuses a page whose numbers are beyond 63 bits. -/
def Page.check (page : Page) : Except EngineFault Unit :=
  if IntegerType.int64.holds page.limit && IntegerType.int64.holds page.offset then .ok ()
  else .error .countTooLarge

/-- The values that a question returns of a row; all of them if it names no columns. -/
def Table.project (t : Table) (found : List (Nat × Column)) (row : Row) : Record :=
  if found.isEmpty then t.record row
  else found.map fun entry => (entry.2.name, (row.cell entry.1).datum)

/-- The answer of a question. The total counts the rows of all pages. -/
def Query.run (q : Query) (db : Database) : Except EngineFault (List Record) := do
  let t ← db.table q.table
  let found ← q.columns.mapM t.column
  let sortKeys ← q.order.mapM (t.sortIndex q.withTotal)
  match q.page with
  | some page => page.check
  | none => pure ()
  let rows ← t.matching q.conditions
  let sorted := sortRows (rowLe (sortKeys.filterMap id)) rows
  let paged := match q.page with
    | some page => page.slice sorted
    | none => sorted
  let total : Record := if q.withTotal then [(totalColumn, .integer rows.length)] else []
  pure (paged.map fun row => t.project found row ++ total)

/-! ## Statements -/

/-- The rows that a statement returns, and how many rows it changed. -/
structure Answer where
  records : List Record := []
  changed : Nat := 0
  deriving Repr

namespace Table

/-- The columns of values to write, each at most once. -/
def targets (t : Table) (values : List (String × String)) :
    Except EngineFault (List (Nat × Column × String)) :=
  go [] values
where
  go (seen : List Nat) : List (String × String) → Except EngineFault (List (Nat × Column × String))
    | [] => .ok []
    | (name, text) :: rest => do
      let (index, column) ← t.column name
      if seen.contains index then throw (.repeatedColumn name)
      let rest ← go (index :: seen) rest
      pure ((index, column, text) :: rest)

/-- The cells of values to write, with their places. -/
def readTargets (targets : List (Nat × Column × String)) : Except EngineFault (List (Nat × Cell)) :=
  targets.mapM fun (index, column, text) => do
    let cell ← column.type.read text
    pure (index, cell)

/-- A row with some cells replaced. -/
def assign (cells : List (Nat × Cell)) (row : Row) : Row :=
  cells.foldl (fun row entry => row.set entry.1 entry.2) row

/-- The condition that a column has a value. -/
def keyCondition (column key : String) : Condition := .compare ⟨.eq, column, key⟩

end Table

/-- The number of the next row of a table, if its primary key is numbered and not written, and the
database that goes on from there. -/
def Database.nextKey (db : Database) (t : Table) (written : List (Nat × Cell)) :
    Option (Nat × Int) × Database :=
  match t.key.bind t.index?, db.counters.get? (Text.asciiLower t.name) with
  | some index, some next =>
    if written.any fun entry => entry.1 == index then (none, db)
    else
      (some (index, next),
        { db with counters := db.counters.insert (Text.asciiLower t.name) (next + 1) })
  | _, _ => (none, db)

/-- Adds a row. Columns without a value are null, except a numbered key. A number that was given out
is not given out again, even if the row is refused. -/
def Database.insertRow (db : Database) (name : String) (values : List (String × String)) :
    Except EngineFault Answer × Database :=
  let written : Except EngineFault (Table × List (Nat × Cell)) := do
    let t ← db.table name
    let targets ← t.targets values
    let cells ← Table.readTargets targets
    pure (t, cells)
  match written with
  | .error fault => (.error fault, db)
  | .ok (t, cells) =>
    let (numbered, db) := db.nextKey t cells
    let cells := cells ++ (numbered.map fun entry => (entry.1, Cell.integer entry.2)).toList
    let row := Table.assign cells (t.columns.map fun _ => .null)
    let t : Table := { t with rows := t.rows ++ [row] }
    if t.keyHolds then (.ok ⟨[t.record row], 1⟩, db.setRows name t.rows)
    else (.error .repeatedKey, db)

/-- Replaces cells in the rows with a key. -/
def Database.updateRows (db : Database) (name : String) (values : List (String × String))
    (keyColumn key : String) : Except EngineFault (Answer × Database) := do
  let t ← db.table name
  let targets ← t.targets values
  let tests ← [Table.keyCondition keyColumn key].mapM t.test
  let chosen ← t.rows.mapM (Test.allHold tests)
  if !chosen.contains true then return ({}, db)
  let cells ← Table.readTargets targets
  let rows := (t.rows.zip chosen).map fun entry =>
    if entry.2 then Table.assign cells entry.1 else entry.1
  let changed := ((rows.zip chosen).filter Prod.snd).map Prod.fst
  if { t with rows := rows }.keyHolds then
    pure (⟨changed.map t.record, changed.length⟩, db.setRows name rows)
  else throw .repeatedKey

/-- Takes out the rows with a key. -/
def Database.deleteRows (db : Database) (name keyColumn key : String) :
    Except EngineFault (Answer × Database) := do
  let t ← db.table name
  let tests ← [Table.keyCondition keyColumn key].mapM t.test
  let chosen ← t.rows.mapM (Test.allHold tests)
  let kept := ((t.rows.zip chosen).filter fun entry => !entry.2).map Prod.fst
  pure (⟨[], t.rows.length - kept.length⟩, db.setRows name kept)

/-- The answer of a change or its fault, and the database after it. -/
def Database.after (db : Database) (outcome : Except EngineFault (Answer × Database)) :
    Except EngineFault Answer × Database :=
  match outcome with
  | .ok (answer, db) => (.ok answer, db)
  | .error fault => (.error fault, db)

/-- The answer of a statement, and the database after it. -/
def Statement.run (db : Database) : Statement → Except EngineFault Answer × Database
  | .select q => ((q.run db).map fun records => ⟨records, 0⟩, db)
  | .count table conditions =>
    let counted : Except EngineFault Answer := do
      let t ← db.table table
      let rows ← t.matching conditions
      pure ⟨[[("n", .integer rows.length)]], 0⟩
    (counted, db)
  | .insert table values => db.insertRow table values
  | .update table values keyColumn key => db.after (db.updateRows table values keyColumn key)
  | .delete table keyColumn key => db.after (db.deleteRows table keyColumn key)

end ParamQuery
