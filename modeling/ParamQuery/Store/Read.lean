import ParamQuery.Intent
import ParamQuery.Store.Loading

/-!
# Reading

Intents carried out as reads: a page of rows with their relations, and the number of all rows that
satisfy the conditions. Only the parts of an intent whose features are switched on count.

## Main definitions

* `ReadPlan` — the statements that an intent leads to.
* `Envelope` — the answer.
* `Action.read` — carries out an intent.
-/

namespace ParamQuery

/-- A page of rows and the number of all rows that were chosen. -/
structure Envelope where
  total : Nat
  collection : List Entity
  limit : Nat
  offset : Nat
  deriving DecidableEq, Repr

def Envelope.toJson (e : Envelope) : Json :=
  .object [
    ("total", .int e.total),
    ("collection", .array (e.collection.map fun entity => .object entity.entries)),
    ("limit", .int e.limit),
    ("offset", .int e.offset)]

/-- A count in an answer. -/
def Json.count? : Json → Option Nat
  | .int n => if 0 ≤ n then some n.toNat else none
  | _ => none

/-- Adds the key columns that relations need to the columns asked for. Those added are listed as
helpers. -/
def addHelpers : List Wanted → List String → List String × List String
  | [], columns => (columns, [])
  | w :: rest, columns =>
    if columns.contains w.relation.parentColumn then addHelpers rest columns
    else
      let (all, helpers) := addHelpers rest (columns ++ [w.relation.parentColumn])
      (all, w.relation.parentColumn :: helpers)

/-- What an intent comes to for a model. -/
structure ReadPlan where
  /-- The question for the page. -/
  query : Query
  /-- The relations to load. -/
  wanted : List Wanted
  /-- Columns that are read only to load relations. -/
  helpers : List String
  deriving DecidableEq, Repr

/-- The relations that count: none unless the feature is switched on. -/
def wantedRelations (m : Model) (s : FieldSelection) (caps : Capabilities) :
    Except Error (List Wanted) :=
  if caps.contains .relations then m.resolve s else .ok []

/-- The conditions that count. -/
def readConditions (m : Model) (intent : QueryIntent) (caps : Capabilities) : List Condition :=
  (if caps.contains .search then
    searchConditions intent.search.q intent.search.fields m.labelColumn
  else []) ++
  (if caps.contains .filter then filterConditions intent.filter.base else [])

/-- The order asked for, ties broken by the primary key; the primary key without one. -/
def readOrder (m : Model) (intent : QueryIntent) (caps : Capabilities) : List SortKey :=
  match intent.order with
  | some order =>
    if caps.contains .order then
      if order.field == m.primaryKey then [⟨m.primaryKey, order.direction⟩]
      else [⟨order.field, order.direction⟩, ⟨m.primaryKey, .asc⟩]
    else [⟨m.primaryKey, .asc⟩]
  | none => [⟨m.primaryKey, .asc⟩]

/-- The page that counts. -/
def readPage (intent : QueryIntent) (caps : Capabilities) : Option Page :=
  if caps.contains .pagination then
    some ⟨intent.pagination.limit, intent.pagination.offset⟩
  else none

/-- What an intent comes to for a model and a set of features. -/
def ReadPlan.make (m : Model) (intent : QueryIntent) (caps : Capabilities) :
    Except Error ReadPlan := do
  let wanted ← wantedRelations m intent.fields caps
  let (columns, helpers) :=
    if caps.contains .fields && !intent.fields.select.isEmpty then
      addHelpers wanted intent.fields.select
    else ([], [])
  pure {
    query := {
      columns := columns
      withTotal := true
      table := m.table
      conditions := readConditions m intent caps
      order := readOrder m intent caps
      page := readPage intent caps }
    wanted := wanted
    helpers := helpers }

namespace Action

/-- The number of rows that satisfy the conditions of a question. -/
def recount (q : Query) : Action Nat := do
  let rows ← fetch (.count q.table q.conditions)
  pure (((rows.head?.bind fun row => row.get? "n").bind Json.count?).getD 0)

/-- The number of all rows chosen: the one that the first row of the page carries. A page without
rows carries none, and the rows are counted again if it does not start with the first row. -/
def total (q : Query) (page : List Entity) : Action Nat :=
  match page with
  | first :: _ => pure (((first.get? totalColumn).bind Json.count?).getD 0)
  | [] =>
    match q.page with
    | some p => if 0 < p.offset then recount q else pure 0
    | none => pure 0

/-- The rows of a plan with their relations, and the number of all rows chosen. -/
def readPlan (plan : ReadPlan) (filter : Wanted → Option FilterBuckets) :
    Action (Nat × List Entity) := do
  let page ← fetch (.select plan.query)
  let total ← total plan.query page
  let page := page.map fun entity => entity.erase totalColumn
  let page ← Wanted.attachAll filter plan.wanted page
  pure (total, page)

/-- The conditions on the rows of a relation that count. -/
def relationFilter (intent : QueryIntent) (caps : Capabilities) (w : Wanted) :
    Option FilterBuckets :=
  if caps.contains .filter then intent.filter.relation? w.relation.name else none

/-- Carries out an intent as a read. -/
def read (m : Model) (intent : QueryIntent) (caps : Capabilities) : Action Envelope := do
  let plan ← ofExcept (ReadPlan.make m intent caps)
  let (total, page) ← transaction (readPlan plan (relationFilter intent caps))
  let page := page.map fun entity =>
    plan.helpers.foldl (fun entity helper => entity.erase helper) entity
  match plan.query.page with
  | some p => pure ⟨total, page, p.limit, p.offset⟩
  | none => pure ⟨total, page, total, 0⟩

/-- All rows of a table, in the order of its first column. -/
def allRows (name : String) : Action (List Entity) := fun session =>
  match session.database.table name with
  | .error fault => (.error (.engine fault), session)
  | .ok t =>
    let order := (t.columns.take 1).map fun column => ⟨column.name, .asc⟩
    let answer := perform (.select ⟨[], false, name, [], order, none⟩) session
    (answer.1.map fun found => found.records.map Record.entity, answer.2)

end Action

end ParamQuery
