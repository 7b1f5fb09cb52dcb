import ParamQuery.Fields
import ParamQuery.Filter.Key
import ParamQuery.ValueRule

/-!
# Endpoint declarations

Which parameters an endpoint accepts, and the values that they may take.

## Main definitions

* `FieldAllowList` — the columns and relations that may be selected.
* `EndpointSchema` — the declaration; a feature that is not declared has its parameters refused.
* `EndpointSchema.declares` — whether a canonical name is accepted.
* `EndpointSchema.check` — mistakes in the declaration itself.
-/

namespace ParamQuery

/-- The columns that may be selected, and the relations with the columns of each. -/
structure FieldAllowList where
  columns : List String := []
  relations : OrderedMap (List String) := ∅
  deriving DecidableEq, Repr, Inhabited

namespace FieldAllowList

def isRelation (allow : FieldAllowList) (name : String) : Bool := allow.relations.contains name

/-- Whether a relation may be loaded with these columns. -/
def allowsRelation (allow : FieldAllowList) (relation : String) (fields : List String) : Bool :=
  match allow.relations.get? relation with
  | some allowed => fields.all allowed.contains
  | none => false

/-- Whether a selection stays within the list. A plain name may also be that of a relation. -/
def allows (allow : FieldAllowList) (s : FieldSelection) : Bool :=
  (s.select.all fun column => allow.columns.contains column || allow.isRelation column) &&
    s.relations.entries.all fun entry => allow.allowsRelation entry.1 entry.2

/-- Everything on the list. -/
def toSelection (allow : FieldAllowList) : FieldSelection where
  select := allow.columns
  relations := allow.relations

end FieldAllowList

/-- What an endpoint accepts. -/
structure EndpointSchema where
  pagination : Bool := false
  search : Option (List String) := none
  fields : Option FieldAllowList := none
  order : Option (List String) := none
  filter : Option (List String) := none
  body : Option (List String) := none
  rules : OrderedMap ValueRule := ∅
  deriving DecidableEq, Repr, Inhabited

namespace EndpointSchema

/-- The rule for a filter key or a column to write; any text without one. -/
def rule (schema : EndpointSchema) (key : String) : ValueRule :=
  (schema.rules.get? key).getD {}

/-- The declared filter keys; none if filters are not declared. -/
def filterKeys (schema : EndpointSchema) : List String := schema.filter.getD []

/-- The declared columns to write; none if writing is not declared. -/
def bodyColumns (schema : EndpointSchema) : List String := schema.body.getD []

/-- The declared features, in the order in which their values are checked. -/
def declared (schema : EndpointSchema) : List Capability :=
  (if schema.pagination then [.pagination] else []) ++
  (if schema.search.isSome then [.search] else []) ++
  (if schema.fields.isSome then [.fields] else []) ++
  (if schema.order.isSome then [.order] else []) ++
  (if schema.filter.isSome then [.filter] else []) ++
  (if schema.body.isSome then [.body] else [])

/-- The features to apply: those declared, and relations if the list of fields has any. -/
def capabilities (schema : EndpointSchema) : Capabilities :=
  let caps := Capabilities.ofList schema.declared
  if schema.fields.any fun allow => !allow.relations.isEmpty then caps.insert .relations else caps

/-- Whether a canonical name is that of a parameter of a declared feature, of a filter key or of a
column to write. -/
def declares (schema : EndpointSchema) (name : String) : Bool :=
  (schema.pagination && (name == "limit" || name == "offset")) ||
  (schema.search.isSome && name == "q") ||
  (schema.fields.isSome && name == "fields") ||
  (schema.order.isSome && name == "order") ||
  schema.filterKeys.contains name ||
  schema.bodyColumns.contains name

/-- Refuses filter keys that cannot be read. -/
def checkFilterKeys : List String → Except Error Unit
  | [] => .ok ()
  | key :: rest =>
    match FilterKey.parse key with
    | .ok _ => checkFilterKeys rest
    | .error fault => .error (.invalidSchema (.filterKey key fault))

/-- Refuses rules for names that are neither filter keys nor columns to write. -/
def checkRules (schema : EndpointSchema) : List String → Except Error Unit
  | [] => .ok ()
  | key :: rest =>
    if schema.filterKeys.contains key || schema.bodyColumns.contains key then
      schema.checkRules rest
    else .error (.invalidSchema (.strayRule key))

/-- Refuses a declaration that no request could use as meant. -/
def check (schema : EndpointSchema) : Except Error Unit := do
  if schema.search == some [] then
    throw (.invalidSchema .emptySearch)
  checkFilterKeys schema.filterKeys
  schema.checkRules schema.rules.keys

end EndpointSchema

end ParamQuery
