import ParamQuery.Store.Cell

/-!
# Tables

Tables with typed columns, an optional primary key and rows of cells, and the databases that they
make up.

## Main definitions

* `Table`, `Database` — the data.
* `Table.column` — the place of a column; names are compared without regard to ASCII case.
* `Table.UniqueKey` — no two rows share a key.
-/

namespace ParamQuery

structure Column where
  name : String
  type : ColumnType
  deriving DecidableEq, Repr

/-- One cell for each column. -/
abbrev Row := List Cell

/-- The cell of a column. -/
def Row.cell (row : Row) (index : Nat) : Cell := row[index]?.getD .null

structure Table where
  name : String
  columns : List Column
  /-- The primary key column, if there is one. -/
  key : Option String := none
  rows : List Row := []
  deriving DecidableEq, Repr

/-- Whether two names mean the same column or table. -/
def sameName (a b : String) : Bool := Text.asciiLower a == Text.asciiLower b

namespace Table

/-- The first of some columns with this name, and its place, counted from `start`. -/
def find? (name : String) : List Column → Nat → Option (Nat × Column)
  | [], _ => none
  | column :: rest, start =>
    if sameName column.name name then some (start, column) else find? name rest (start + 1)

/-- The place of a column. -/
def index? (t : Table) (name : String) : Option Nat := (find? name t.columns 0).map Prod.fst

/-- The place and the description of a column. -/
def column (t : Table) (name : String) : Except EngineFault (Nat × Column) :=
  match find? name t.columns 0 with
  | some found => .ok found
  | none => .error (.unknownColumn name)

/-- The values of a row with the names of their columns. -/
def record (t : Table) (row : Row) : Record :=
  t.columns.zipIdx.map fun entry => (entry.1.name, (row.cell entry.2).datum)

/-- The cells of a column, row by row. -/
def cellsAt (t : Table) (index : Nat) : List Cell := t.rows.map fun row => row.cell index

/-- Whether no cell of a list is null or compares equal to a later one. -/
def distinctCells : List Cell → Bool
  | [] => true
  | cell :: rest =>
    !cell.isNull && rest.all (fun other => cell.compare other != .eq) && distinctCells rest

/-- Whether the cells of the primary key are all there and all different. -/
def keyHolds (t : Table) : Bool :=
  match t.key.bind t.index? with
  | some index => distinctCells (t.cellsAt index)
  | none => true

/-- Whether the rows have different cells in a column, none of them null. -/
def UniqueKey (t : Table) (name : String) : Prop :=
  ∃ index, t.index? name = some index ∧ distinctCells (t.cellsAt index) = true

/-- Reads the texts of a row. -/
def readRow : List Column → List (Option String) → Except EngineFault Row
  | [], _ => .ok []
  | _ :: columns, [] => do
    let rest ← readRow columns []
    pure (.null :: rest)
  | column :: columns, text :: texts => do
    let cell ← match text with
      | some text => column.type.read text
      | none => pure .null
    let rest ← readRow columns texts
    pure (cell :: rest)

end Table

/-- Tables, and for each table whose primary key is numbered the next number. -/
structure Database where
  tables : List Table := []
  counters : OrderedMap Int := ∅
  deriving DecidableEq, Repr

namespace Database

def table? (db : Database) (name : String) : Option Table :=
  db.tables.find? fun t => sameName t.name name

/-- The table with this name. -/
def table (db : Database) (name : String) : Except EngineFault Table :=
  match db.table? name with
  | some t => .ok t
  | none => .error (.unknownTable name)

/-- Changes the rows of the first table with this name. -/
def setRows (db : Database) (name : String) (rows : List Row) : Database :=
  { db with tables := replace db.tables }
where
  replace : List Table → List Table
    | [] => []
    | t :: rest =>
      if sameName t.name name then { t with rows := rows } :: rest else t :: replace rest

/-- Adds a table whose rows are written as texts; `next` numbers its primary key. -/
def addTable (db : Database) (name : String) (columns : List Column) (key : Option String)
    (next : Option Int) (rows : List (List (Option String))) : Except EngineFault Database := do
  let rows ← rows.mapM (Table.readRow columns)
  let t : Table := ⟨name, columns, key, rows⟩
  if t.keyHolds then
    let counters := match next with
      | some n => db.counters.insert (Text.asciiLower name) n
      | none => db.counters
    pure ⟨db.tables ++ [t], counters⟩
  else throw .repeatedKey

end Database

end ParamQuery
