/-!
# Comparisons

The comparisons that a filter key can name by an acronym.
-/

namespace ParamQuery

inductive CompareOp where
  | eq
  | ne
  | gt
  | lt
  deriving DecidableEq, Repr

namespace CompareOp

/-- All comparisons, in the order in which conditions are listed. -/
def all : List CompareOp := [.eq, .ne, .gt, .lt]

def acronym : CompareOp → String
  | .eq => "eq"
  | .ne => "ne"
  | .gt => "gt"
  | .lt => "lt"

def ofAcronym? (text : String) : Option CompareOp :=
  all.find? fun op => op.acronym == text

/-- The operator in a statement. -/
def sql : CompareOp → String
  | .eq => "="
  | .ne => "<>"
  | .gt => ">"
  | .lt => "<"

/-- Whether a comparison holds of two things in this order. -/
def holds : CompareOp → Ordering → Bool
  | .eq, o => o == .eq
  | .ne, o => o != .eq
  | .gt, o => o == .gt
  | .lt, o => o == .lt

theorem ofAcronym?_acronym (op : CompareOp) : ofAcronym? op.acronym = some op := by
  cases op <;> decide

theorem acronym_of_ofAcronym? {text : String} {op : CompareOp} (h : ofAcronym? text = some op) :
    op.acronym = text := by
  simpa using List.find?_some h

end CompareOp

end ParamQuery
