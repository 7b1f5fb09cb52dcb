import ParamQuery.Json
import ParamQuery.Text.Numeral

/-!
# Orders

The order that a request asks for, written `field.direction`.
-/

namespace ParamQuery

open Text

inductive Direction where
  | asc
  | desc
  deriving DecidableEq, Repr

namespace Direction

def name : Direction → String
  | .asc => "asc"
  | .desc => "desc"

/-- The keyword in a statement. -/
def sql : Direction → String
  | .asc => "ASC"
  | .desc => "DESC"

/-- Reads a direction in any ASCII case. -/
def parse? (text : String) : Option Direction :=
  let word := asciiLower text
  if word = "asc" then some .asc else if word = "desc" then some .desc else none

theorem parse?_name (d : Direction) : parse? d.name = some d := by
  cases d <;> decide

end Direction

/-- A field to order by and the direction. -/
structure Order where
  field : String
  direction : Direction
  deriving DecidableEq, Repr

namespace Order

/-- Reads a field that is not empty, one point and a direction. -/
def parse? (text : String) : Option Order :=
  match splitFirst '.' text.toList with
  | some (field, direction) =>
    if field.isEmpty || direction.contains '.' then none
    else (Direction.parse? (String.ofList direction)).map fun d => ⟨String.ofList field, d⟩
  | none => none

def text (o : Order) : String := o.field ++ "." ++ o.direction.name

def toJson (o : Order) : Json :=
  .object [("field", .string o.field), ("direction", .string o.direction.name)]

example : parse? "id.ASC" = some ⟨"id", .asc⟩ := by decide
example : parse? "name.asc.x" = none := by decide

end Order

end ParamQuery
