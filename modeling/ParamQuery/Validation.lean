import ParamQuery.Config
import ParamQuery.Params
import ParamQuery.Schema

/-!
# Validation of requests

Checks the parameters of a request against the declaration of an endpoint and fills in what was left
out. The checks are made in a fixed order, and the first that fails decides the error: the method,
then the names in the order sent, then the values, feature by feature.

## Main definitions

* `checkMethod`, `canonicalParams` — the checks of the method and of the names.
* `ValidParams` — parameters that passed, by canonical name.
* `validate` — the whole check.
-/

namespace ParamQuery

open Text

/-- The parameters of a request that passed its checks. -/
structure ValidParams where
  method : Method
  values : OrderedMap String
  limit : Nat
  offset : Nat
  suppressStatus : Bool
  deriving DecidableEq, Repr

/-- Refuses a method that some declared feature cannot be used with. -/
def checkMethod (schema : EndpointSchema) (method : Method) : Except Error Unit :=
  match schema.declared.find? fun c => !c.allows method with
  | some c => .error (.methodNotAllowed c method)
  | none => .ok ()

/-- Adds parameters under their canonical names to those read so far. Spellings of the suppression
parameter are left out; a name that is not declared, or the second spelling of one name, is
refused. -/
def addCanonical (schema : EndpointSchema) (sent : OrderedMap ParamValue) :
    List (String × ParamValue) → Except Error (OrderedMap ParamValue)
  | [] => .ok sent
  | (name, value) :: rest =>
    if isSuppression name then addCanonical schema sent rest
    else if !schema.declares (canonical name) then .error (.unknownParameter name)
    else if sent.contains (canonical name) then .error (.invalidValue name .duplicate)
    else addCanonical schema (sent.insert (canonical name) value) rest

/-- The parameters by canonical name, in the order sent. -/
def canonicalParams (schema : EndpointSchema) (params : Params) :
    Except Error (OrderedMap ParamValue) :=
  addCanonical schema ∅ params.entries

/-! ## Values -/

/-- The text of a parameter that must not be a list. -/
def singleText (param : String) (value : ParamValue) : Except Error String :=
  match value.single? with
  | some text => .ok text
  | none => .error (.invalidValue param .notSingle)

/-- The largest count that the tables take: `2 ^ 63 - 1`. -/
def largestCount : Nat := 9223372036854775807

/-- A count, white space around it aside, that the tables take. -/
def readCount (param : String) (value : ParamValue) : Except Error Nat := do
  let text ← singleText param value
  match count? (trim text.toList) with
  | none => throw (.invalidValue param .notCount)
  | some n => if n > largestCount then throw (.invalidValue param (.above largestCount)) else pure n

/-- The size of a page: at least one, and within the configured bound. -/
def readLimit (config : Config) (value : ParamValue) : Except Error Nat := do
  let limit ← readCount "limit" value
  if limit < 1 then throw (.invalidValue "limit" .zero)
  match config.maxLimit with
  | some max => if limit > max then throw (.invalidValue "limit" (.above max)) else pure limit
  | none => pure limit

/-- Checks the page and records it, with the configured values where none were sent. -/
def validatePagination (config : Config) (sent : OrderedMap ParamValue) (valid : ValidParams) :
    Except Error ValidParams := do
  let limit ← match sent.get? "limit" with
    | some value => readLimit config value
    | none => pure valid.limit
  let offset ← match sent.get? "offset" with
    | some value => readCount "offset" value
    | none => pure valid.offset
  pure { valid with
    limit := limit
    offset := offset
    values := (valid.values.insert "limit" (toString limit)).insert "offset" (toString offset) }

/-- Checks the text to search for and records it, the empty text if none was sent. -/
def validateSearch (sent : OrderedMap ParamValue) (valid : ValidParams) :
    Except Error ValidParams := do
  let q ← match sent.get? "q" with
    | some value => singleText "q" value
    | none => pure ""
  pure { valid with values := valid.values.insert "q" q }

/-- Whether a selection asks for a relation, as a whole or in part. -/
def FieldSelection.wantsRelation (s : FieldSelection) (allow : FieldAllowList) : Bool :=
  !s.relations.isEmpty || s.select.any allow.isRelation

/-- Checks the fields and records them in canonical form. -/
def validateFields (allow : FieldAllowList) (sent : OrderedMap ParamValue) (valid : ValidParams) :
    Except Error ValidParams :=
  match sent.get? "fields" with
  | none => .ok valid
  | some value =>
    let text := canonicalFields value.joined
    let selection := FieldSelection.parse text
    if !allow.allows selection then .error .fieldsNotApplicable
    else if selection.wantsRelation allow && !Capability.relations.allows valid.method then
      .error (.methodNotAllowed .relations valid.method)
    else .ok { valid with values := valid.values.insert "fields" text }

/-- An order with its field in canonical form, if that is one of the declared columns. -/
def applicableOrder? (columns : List String) (value : ParamValue) : Option Order := do
  let order ← Order.parse? (← value.single?)
  let order : Order := { order with field := canonical order.field }
  if columns.contains order.field then some order else none

/-- Checks the order and records it in canonical form. -/
def validateOrder (columns : List String) (sent : OrderedMap ParamValue) (valid : ValidParams) :
    Except Error ValidParams :=
  match sent.get? "order" with
  | none => .ok valid
  | some value =>
    match applicableOrder? columns value with
    | some order => .ok { valid with values := valid.values.insert "order" order.text }
    | none => .error .orderNotApplicable

/-- Checks the values of declared keys against their rules and records those that were sent. -/
def validateKeys (schema : EndpointSchema) (sent : OrderedMap ParamValue) :
    List String → ValidParams → Except Error ValidParams
  | [], valid => .ok valid
  | key :: rest, valid => do
    let rule := schema.rule key
    match sent.get? key with
    | some value =>
      let text ← singleText key value
      match rule.fault? text with
      | some fault => throw (.invalidValue key fault)
      | none =>
        validateKeys schema sent rest { valid with values := valid.values.insert key text }
    | none =>
      if rule.required then throw (.invalidValue key .missing)
      else validateKeys schema sent rest valid

/-- Checks the values that belong to one feature. -/
def validateCapability (config : Config) (schema : EndpointSchema)
    (sent : OrderedMap ParamValue) (valid : ValidParams) :
    Capability → Except Error ValidParams
  | .pagination => validatePagination config sent valid
  | .search => validateSearch sent valid
  | .fields => validateFields (schema.fields.getD {}) sent valid
  | .order => validateOrder (schema.order.getD []) sent valid
  | .filter => validateKeys schema sent schema.filterKeys valid
  | .body => validateKeys schema sent schema.bodyColumns valid
  | .relations => .ok valid

/-- What is known of a request before its values are checked. -/
def ValidParams.initial (config : Config) (method : Method) (params : Params) : ValidParams where
  method := method
  values := ∅
  limit := config.defaultLimit
  offset := config.defaultOffset
  suppressStatus := params.suppressesStatus

/-- Checks a request against the declaration of an endpoint. -/
def validate (config : Config) (schema : EndpointSchema) (method : Method) (params : Params) :
    Except Error ValidParams := do
  checkMethod schema method
  let sent ← canonicalParams schema params
  schema.declared.foldlM (fun valid c => validateCapability config schema sent valid c)
    (.initial config method params)

end ParamQuery
