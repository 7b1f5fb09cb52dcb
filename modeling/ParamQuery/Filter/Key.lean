import ParamQuery.Filter.Operator
import ParamQuery.Text.Split

/-!
# Filter keys

The name of a filter parameter says what it compares: `column`, `column_op`, `relation_column` or
`relation_column_op`.

## Main definitions

* `FilterKey` — a column, the relation that it belongs to, if any, and the comparison.
* `FilterKey.parse` — reads a name.
-/

namespace ParamQuery

open Text

/-- What a filter parameter compares. -/
inductive FilterKey where
  /-- A column of the rows that are read. -/
  | base (column : String) (op : CompareOp)
  /-- A column of a relation that is loaded with them. -/
  | related (relation column : String) (op : CompareOp)
  deriving DecidableEq, Repr

/-- Why a name is no filter key. -/
inductive KeyFault where
  | emptySegment
  | unknownOperator
  | tooManySegments
  deriving DecidableEq, Repr

def KeyFault.message : KeyFault → String
  | .emptySegment => "empty segment"
  | .unknownOperator => "unknown operator suffix"
  | .tooManySegments => "too many segments"

namespace FilterKey

def op : FilterKey → CompareOp
  | .base _ op => op
  | .related _ _ op => op

def column : FilterKey → String
  | .base column _ => column
  | .related _ column _ => column

def relation? : FilterKey → Option String
  | .base _ _ => none
  | .related relation _ _ => some relation

/-- The parts of a name between its underscores. -/
def segments (name : String) : List String :=
  (splitOn '_' name.toList).map String.ofList

/-- Reads the parts of a name. Two parts name a column and a comparison only if the second is an
acronym, and otherwise a relation and its column, for equality. Three parts end in a comparison. -/
def ofSegments : List String → Except KeyFault FilterKey
  | [column] => .ok (.base column .eq)
  | [first, second] =>
    match CompareOp.ofAcronym? second with
    | some op => .ok (.base first op)
    | none => .ok (.related first second .eq)
  | [relation, column, last] =>
    match CompareOp.ofAcronym? last with
    | some op => .ok (.related relation column op)
    | none => .error .unknownOperator
  | _ => .error .tooManySegments

/-- Reads the name of a filter parameter. -/
def parse (name : String) : Except KeyFault FilterKey :=
  let parts := segments name
  if parts.any String.isEmpty then .error .emptySegment else ofSegments parts

example : parse "orders_total_gt" = .ok (.related "orders" "total" .gt) := rfl
example : parse "created_at" = .ok (.related "created" "at" .eq) := rfl

end FilterKey

end ParamQuery
