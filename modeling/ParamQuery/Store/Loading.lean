import ParamQuery.Store.Model
import ParamQuery.Store.Session

/-!
# Loading relations

Related rows of a whole page of rows are loaded with one statement and then shared out by key.

## Main definitions

* `pageKeys` — the different keys of a page.
* `Wanted.query` — the question for the related rows.
* `groupRows` — related rows by key.
* `attach` — a page with the rows of one relation.
-/

namespace ParamQuery

/-- The text of the key in a column of a row; null is no key. -/
def Entity.key? (entity : Entity) (column : String) : Option String :=
  (entity.get? column).bind Json.keyText?

/-- The different keys in a column of a page, in order of their first appearance. -/
def pageKeys (column : String) (page : List Entity) : List String :=
  page.foldl
    (fun keys entity =>
      match entity.key? column with
      | some key => if keys.contains key then keys else keys ++ [key]
      | none => keys)
    []

namespace Wanted

/-- Whether the key column of the related rows is loaded only to share them out. -/
def stripsKey (w : Wanted) : Bool :=
  !w.fields.isEmpty && !w.fields.contains w.relation.relatedColumn

/-- The question for the related rows of some keys. -/
def query (w : Wanted) (filter : Option FilterBuckets) (keys : List String) : Query where
  columns := if w.stripsKey then w.fields ++ [w.relation.relatedColumn] else w.fields
  withTotal := false
  table := w.relation.table
  conditions :=
    .oneOf w.relation.relatedColumn keys :: (filter.map filterConditions).getD []
  order := [⟨w.relation.orderColumn, .asc⟩]
  page := none

/-- The related rows by key, in the order loaded. A key column that was not asked for is taken
out. -/
def groupRows (w : Wanted) (rows : List Entity) : OrderedMap (List Entity) :=
  rows.foldl
    (fun groups row =>
      match row.key? w.relation.relatedColumn with
      | none => groups
      | some key =>
        let row := if w.stripsKey then row.erase w.relation.relatedColumn else row
        groups.update key [] fun group => group ++ [row])
    ∅

/-- What is nested in a row: all related rows as a list, or the first one or null. -/
def nested (w : Wanted) (related : List Entity) : Json :=
  match w.relation.kind with
  | .hasMany => .array (related.map fun row => .object row.entries)
  | .belongsTo => .ofOption (fun (row : Entity) => .object row.entries) related.head?

/-- A row with its related rows under the name of the relation. -/
def place (w : Wanted) (groups : OrderedMap (List Entity)) (entity : Entity) : Entity :=
  let related := ((entity.key? w.relation.parentColumn).bind groups.get?).getD []
  entity.insert w.relation.name (w.nested related)

/-- A page with the rows of one relation, loaded with one statement if there is any key. -/
def attach (w : Wanted) (filter : Option FilterBuckets) (page : List Entity) :
    Action (List Entity) := do
  let keys := pageKeys w.relation.parentColumn page
  let rows ← if keys.isEmpty then pure [] else Action.fetch (.select (w.query filter keys))
  pure (page.map (w.place (w.groupRows rows)))

/-- A page with the rows of several relations, one after the other. -/
def attachAll (filter : Wanted → Option FilterBuckets) : List Wanted → List Entity →
    Action (List Entity)
  | [], page => pure page
  | w :: rest, page => do
    let page ← w.attach (filter w) page
    attachAll filter rest page

end Wanted

end ParamQuery
