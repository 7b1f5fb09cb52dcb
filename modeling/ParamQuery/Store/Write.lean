import ParamQuery.Intent
import ParamQuery.Store.Read

/-!
# Writing

Intents carried out as writes: new rows, changed rows and removed rows. What is returned is cut to
the fields asked for.

## Main definitions

* `Action.create`, `Action.update`, `Action.delete`
-/

namespace ParamQuery

/-- The columns and texts to write; there must be some. -/
def bodyValues (intent : QueryIntent) : Except Error (List (String × String)) :=
  if intent.body.isEmpty then .error (.invalidValue "body" .nothingToWrite)
  else .ok intent.body.entries

/-- A row cut to the columns and relations of a selection; an empty selection keeps all. -/
def Entity.restrictTo (entity : Entity) (s : FieldSelection) : Entity :=
  if s.visibleKeys.isEmpty then entity else entity.restrict s.visibleKeys.contains

/-- A written row, cut to the fields asked for if that feature is switched on. -/
def visible (intent : QueryIntent) (caps : Capabilities) (entity : Entity) : Entity :=
  if caps.contains .fields then entity.restrictTo intent.fields else entity

namespace Action

/-- Adds a row and returns it. -/
def create (m : Model) (intent : QueryIntent) (caps : Capabilities) : Action Entity := do
  let values ← ofExcept (bodyValues intent)
  let entity ← transaction do
    let rows ← fetch (.insert m.table values)
    match rows with
    | row :: _ => pure row
    | [] => fail (.storage ("insert into " ++ m.table ++ " returned no row"))
  pure (visible intent caps entity)

/-- What a key that no row has is reported as. -/
def noRow (m : Model) (key : String) : Error := .notFound (m.table ++ " " ++ key)

/-- Changes the row with a key and returns it with its relations. -/
def update (m : Model) (key : String) (intent : QueryIntent) (caps : Capabilities) :
    Action Entity := do
  let values ← ofExcept (bodyValues intent)
  let wanted ← ofExcept (wantedRelations m intent.fields caps)
  let entity ← transaction do
    let rows ← fetch (.update m.table values m.primaryKey key)
    match rows with
    | [] => fail (noRow m key)
    | row :: _ =>
      let loaded ← Wanted.attachAll (fun w => intent.filter.relation? w.relation.name) wanted [row]
      match loaded with
      | row :: _ => pure row
      | [] => fail (noRow m key)
  pure (visible intent caps entity)

/-- Takes out the row with a key. -/
def delete (m : Model) (key : String) : Action Unit := do
  let answer ← perform (.delete m.table m.primaryKey key)
  if answer.changed = 0 then fail (noRow m key) else pure ()

end Action

end ParamQuery
