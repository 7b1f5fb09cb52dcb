import ParamQuery.Filter.Key
import ParamQuery.Json

/-!
# Filter sets

The conditions of a request, sorted by comparison, for the rows that are read and for each relation.

## Main definitions

* `FilterBuckets` — for each comparison the columns and the texts to compare them with.
* `FilterSet` — buckets for the rows that are read and for relations.

## Main statements

* `FilterBuckets.bucket_insert` — an insert changes the bucket of its comparison alone.
* `FilterSet.base_insert`, `FilterSet.relation?_insert` — an insert changes the buckets that its key
  belongs to alone.
-/

namespace ParamQuery

/-- Columns and texts for each comparison. -/
structure FilterBuckets where
  eq : OrderedMap String := ∅
  ne : OrderedMap String := ∅
  gt : OrderedMap String := ∅
  lt : OrderedMap String := ∅
  deriving DecidableEq, Repr, Inhabited

/-- A condition on a column. -/
structure Comparison where
  op : CompareOp
  column : String
  value : String
  deriving DecidableEq, Repr

namespace FilterBuckets

def bucket (b : FilterBuckets) : CompareOp → OrderedMap String
  | .eq => b.eq
  | .ne => b.ne
  | .gt => b.gt
  | .lt => b.lt

/-- Puts a condition; the last text for a comparison and a column counts. -/
def insert (b : FilterBuckets) (op : CompareOp) (column value : String) : FilterBuckets :=
  match op with
  | .eq => { b with eq := b.eq.insert column value }
  | .ne => { b with ne := b.ne.insert column value }
  | .gt => { b with gt := b.gt.insert column value }
  | .lt => { b with lt := b.lt.insert column value }

/-- The conditions, comparison by comparison. -/
def conditions (b : FilterBuckets) : List Comparison :=
  CompareOp.all.flatMap fun op =>
    (b.bucket op).entries.map fun entry => ⟨op, entry.1, entry.2⟩

def isEmpty (b : FilterBuckets) : Bool :=
  CompareOp.all.all fun op => (b.bucket op).isEmpty

def toJson (b : FilterBuckets) : Json :=
  .object (CompareOp.all.map fun op =>
    (op.acronym, .object ((b.bucket op).map Json.string).entries))

theorem bucket_insert (b : FilterBuckets) (op other : CompareOp) (column value : String) :
    (b.insert op column value).bucket other =
      if op = other then (b.bucket other).insert column value else b.bucket other := by
  cases op <;> cases other <;> rfl

end FilterBuckets

/-- The conditions of a request. -/
structure FilterSet where
  base : FilterBuckets := {}
  relations : OrderedMap FilterBuckets := ∅
  deriving DecidableEq, Repr, Inhabited

namespace FilterSet

/-- Puts a condition where its key belongs. -/
def insert (f : FilterSet) (key : FilterKey) (value : String) : FilterSet :=
  match key with
  | .base column op => { f with base := f.base.insert op column value }
  | .related relation column op =>
    { f with relations := f.relations.update relation {} fun b => b.insert op column value }

/-- The conditions on a relation, if there are any. -/
def relation? (f : FilterSet) (name : String) : Option FilterBuckets := f.relations.get? name

theorem relation?_insert (f : FilterSet) (key : FilterKey) (value name : String) :
    (f.insert key value).relation? name =
      if key.relation? = some name then
        some (((f.relation? name).getD {}).insert key.op key.column value)
      else f.relation? name := by
  cases key with
  | base column op => simp [insert, relation?, FilterKey.relation?]
  | related relation column op =>
    simp only [insert, relation?, OrderedMap.get?_update, FilterKey.relation?, FilterKey.op,
      FilterKey.column, Option.some.injEq]
    by_cases h : relation = name <;> simp [h]

theorem base_insert (f : FilterSet) (key : FilterKey) (value : String) :
    (f.insert key value).base =
      if key.relation? = none then f.base.insert key.op key.column value else f.base := by
  cases key <;> simp [insert, FilterKey.relation?, FilterKey.op, FilterKey.column]

def toJson (f : FilterSet) : Json :=
  .object [
    ("select", f.base.toJson),
    ("relations", .object (f.relations.map FilterBuckets.toJson).entries)]

end FilterSet

end ParamQuery
