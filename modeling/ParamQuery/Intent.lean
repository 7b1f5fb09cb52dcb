import ParamQuery.Filter.Set
import ParamQuery.Validation

/-!
# Query intents

What a request asks for, in terms of columns, relations, conditions, order, page and values to
write, built from parameters that passed their checks.

## Main definitions

* `QueryIntent` — what a request asks for.
* `QueryIntent.build` — the intent of valid parameters.
-/

namespace ParamQuery

/-- A text to look for, and the columns to look in. -/
structure Search where
  q : String := ""
  fields : List String := []
  deriving DecidableEq, Repr, Inhabited

/-- Whether there is a text to look for and a column to look in. -/
def Search.isActive (s : Search) : Bool := !s.q.isEmpty && !s.fields.isEmpty

structure Pagination where
  limit : Nat
  offset : Nat
  deriving DecidableEq, Repr, Inhabited

/-- What a request asks for. -/
structure QueryIntent where
  fields : FieldSelection := {}
  filter : FilterSet := {}
  search : Search := {}
  order : Option Order := none
  pagination : Pagination
  body : OrderedMap String := ∅
  deriving DecidableEq, Repr

namespace QueryIntent

def toJson (intent : QueryIntent) : Json :=
  .object [
    ("fields", intent.fields.toJson),
    ("filter", intent.filter.toJson),
    ("search", .object [("q", .string intent.search.q), ("fields", .strings intent.search.fields)]),
    ("order", Json.ofOption Order.toJson intent.order),
    ("pagination", .object [
      ("limit", .int intent.pagination.limit), ("offset", .int intent.pagination.offset)]),
    ("body", .object (intent.body.map Json.string).entries)]

end QueryIntent

/-- A selection in which plain names of relations ask for these relations as a whole. -/
def FieldSelection.promoteRelations (s : FieldSelection) (allow : FieldAllowList) :
    FieldSelection :=
  s.select.foldl
    (fun promoted column =>
      if allow.isRelation column then promoted.addRelation column else promoted.addColumn column)
    { select := [], relations := s.relations }

/-- The fields asked for, everything allowed if nothing is asked for. -/
def selectedFields (schema : EndpointSchema) (valid : ValidParams) : FieldSelection :=
  match schema.fields with
  | none => {}
  | some allow =>
    let selection := match valid.values.get? "fields" with
      | some text => (FieldSelection.parse text).promoteRelations allow
      | none => {}
    if selection.isEmpty then allow.toSelection else selection

def requestedSearch (schema : EndpointSchema) (valid : ValidParams) : Search :=
  match schema.search with
  | some fields => ⟨(valid.values.get? "q").getD "", fields⟩
  | none => {}

def requestedOrder (config : Config) (schema : EndpointSchema) (valid : ValidParams) :
    Except Error (Option Order) :=
  if schema.order.isNone then .ok none
  else
    match valid.values.get? "order" with
    | some text => .ok (Order.parse? text)
    | none => config.order.map some

/-- Adds the conditions of the filter keys that have a value. -/
def addConditions (valid : ValidParams) : List String → FilterSet → Except Error FilterSet
  | [], filter => .ok filter
  | name :: rest, filter =>
    match valid.values.get? name with
    | none => addConditions valid rest filter
    | some value =>
      match FilterKey.parse name with
      | .ok key => addConditions valid rest (filter.insert key value)
      | .error fault => .error (.invalidSchema (.filterKey name fault))

/-- The columns to write that have a value. -/
def requestedBody (schema : EndpointSchema) (valid : ValidParams) : OrderedMap String :=
  .ofList (schema.bodyColumns.filterMap fun column =>
    (valid.values.get? column).map fun value => (column, value))

/-- The intent of parameters that passed the checks of an endpoint. -/
def QueryIntent.build (config : Config) (schema : EndpointSchema) (valid : ValidParams) :
    Except Error QueryIntent := do
  let filter ← addConditions valid schema.filterKeys {}
  let order ← requestedOrder config schema valid
  pure {
    fields := selectedFields schema valid
    filter := filter
    search := requestedSearch schema valid
    order := order
    pagination := ⟨valid.limit, valid.offset⟩
    body := requestedBody schema valid }

end ParamQuery
