import ParamQuery.Error
import ParamQuery.Fields

/-!
# Models

Descriptions of the tables that requests read from and write to: the primary key, the column shown
for a row, and the relations to other tables.

## Main definitions

* `Relation`, `Model` — the descriptions.
* `Model.resolve` — the relations that a selection asks for.
-/

namespace ParamQuery

inductive RelationKind where
  /-- Related rows point at the row: a list is loaded. -/
  | hasMany
  /-- The row points at one related row: one row or null is loaded. -/
  | belongsTo
  deriving DecidableEq, Repr

/-- How the rows of a table belong to those of another one. -/
structure Relation where
  name : String
  /-- The related table. -/
  table : String
  kind : RelationKind
  /-- The column of a row that holds the key. -/
  parentColumn : String
  /-- The column of the related rows that is compared with it. -/
  relatedColumn : String
  /-- The column that orders the related rows of one row. -/
  orderColumn : String
  deriving DecidableEq, Repr

namespace Relation

/-- Related rows hold the key of the row in `foreignKey`. -/
def hasMany (name table foreignKey : String) : Relation :=
  ⟨name, table, .hasMany, "id", foreignKey, "id"⟩

/-- The row holds the key of the related row in `foreignKey`. -/
def belongsTo (name table foreignKey : String) : Relation :=
  ⟨name, table, .belongsTo, foreignKey, "id", "id"⟩

end Relation

structure Model where
  table : String
  primaryKey : String := "id"
  /-- The column that stands in for the first one searched. -/
  labelColumn : Option String := none
  relations : List Relation := []
  deriving DecidableEq, Repr

/-- A relation to load, with the columns wanted of it. -/
structure Wanted where
  relation : Relation
  fields : List String
  deriving DecidableEq, Repr

namespace Model

def relation? (m : Model) (name : String) : Option Relation :=
  m.relations.find? fun r => r.name == name

/-- Looks up relations with their columns. -/
def resolveAll (m : Model) : List (String × List String) → Except Error (List Wanted)
  | [] => .ok []
  | (name, fields) :: rest =>
    match m.relation? name with
    | none => .error (.invalidSchema (.undefinedRelation name m.table))
    | some relation => do
      let rest ← m.resolveAll rest
      pure (⟨relation, fields⟩ :: rest)

/-- The relations that a selection asks for, in its order. -/
def resolve (m : Model) (s : FieldSelection) : Except Error (List Wanted) :=
  m.resolveAll s.relations.entries

end Model

end ParamQuery
