import ParamQuery.Capability
import ParamQuery.Filter.Key
import ParamQuery.OrderedMap

/-!
# Errors

Everything that can go wrong, by cause, and how a failure is reported: a status and messages under
the name of the parameter or of the kind of failure.

## Main definitions

* `Error` — the causes.
* `Error.message`, `Error.status`, `Error.key` — how a cause is reported.
* `Failure` — the report.
-/

namespace ParamQuery

/-- What is wrong with the value of a parameter. -/
inductive ValueFault where
  | duplicate
  | notSingle
  | notCount
  | zero
  | above (bound : Nat)
  | missing
  | notInteger
  | notNumber
  | nothingToWrite
  | described (text : String)
  deriving DecidableEq, Repr

def ValueFault.message : ValueFault → String
  | .duplicate => "duplicate parameter"
  | .notSingle => "must be a single value"
  | .notCount => "must be a non-negative integer"
  | .zero => "must be at least 1"
  | .above bound => "must be at most " ++ toString bound
  | .missing => "is required"
  | .notInteger => "must be an integer"
  | .notNumber => "must be a number"
  | .nothingToWrite => "no columns to write"
  | .described text => text

/-- What is wrong with the declaration of an endpoint or of a table. -/
inductive SchemaFault where
  | emptySearch
  | filterKey (name : String) (fault : KeyFault)
  | strayRule (name : String)
  | unknownRule (token : String)
  | undefinedRelation (relation table : String)
  | described (text : String)
  deriving DecidableEq, Repr

def SchemaFault.message : SchemaFault → String
  | .emptySearch => "search must declare at least one field"
  | .filterKey name fault => "filter key '" ++ name ++ "': " ++ fault.message
  | .strayRule name => "value rule for undeclared key '" ++ name ++ "'"
  | .unknownRule token => "unknown value rule '" ++ token ++ "'"
  | .undefinedRelation relation table =>
    "relation '" ++ relation ++ "' is not defined on '" ++ table ++ "'"
  | .described text => text

/-- What is wrong with a configuration. -/
inductive ConfigFault where
  | zeroDefaultLimit
  | maxBelowDefault (max default : Nat)
  | malformedOrder (text : String)
  | unreadable
  | unwritable
  | described (text : String)
  deriving DecidableEq, Repr

def ConfigFault.message : ConfigFault → String
  | .zeroDefaultLimit => "default_limit must be at least 1"
  | .maxBelowDefault max default =>
    "max_limit " ++ toString max ++ " is below default_limit " ++ toString default
  | .malformedOrder text => "default_order '" ++ text ++ "' is not field.direction"
  | .unreadable => "Failed to parse config"
  | .unwritable => "Failed to serialize config"
  | .described text => text

/-- Why the tables did not carry out a statement. -/
inductive EngineFault where
  | unknownTable (name : String)
  | unknownColumn (name : String)
  | repeatedColumn (name : String)
  | unreadableText (text : String)
  | missingKey
  | repeatedKey
  | countTooLarge
  | invalidLiteral
  | cannotOpen
  deriving DecidableEq, Repr

inductive Error where
  | io
  | engine (fault : EngineFault)
  | config (fault : ConfigFault)
  | storage (text : String)
  | methodNotAllowed (capability : Capability) (method : Method)
  | unsupportedMethod (text : String)
  | unknownParameter (name : String)
  | fieldsNotApplicable
  | orderNotApplicable
  | invalidValue (param : String) (fault : ValueFault)
  | invalidSchema (fault : SchemaFault)
  | notFound (subject : String)
  deriving DecidableEq, Repr

namespace Error

def message : Error → String
  | .io => "IO error"
  | .engine _ => "DuckDB error"
  | .config fault => "Configuration error: " ++ fault.message
  | .storage text => "Storage error: " ++ text
  | .methodNotAllowed _ method => "Method not allowed on " ++ method.name ++ " request."
  | .unsupportedMethod text => "Unsupported HTTP method: " ++ text
  | .unknownParameter name => "Invalid param " ++ name ++ "."
  | .fieldsNotApplicable => "Some fields are not applicable."
  | .orderNotApplicable => "Order by is not applicable."
  | .invalidValue param fault => "Invalid value for " ++ param ++ ": " ++ fault.message
  | .invalidSchema fault => "Invalid schema: " ++ fault.message
  | .notFound subject => "Not found: " ++ subject

/-- Whether the parameters of the request are at fault. -/
def isValidation : Error → Bool
  | .unknownParameter _ | .fieldsNotApplicable | .orderNotApplicable | .invalidValue _ _ => true
  | _ => false

/-- The status to answer with. -/
def status : Error → Nat
  | .unknownParameter _ | .fieldsNotApplicable | .orderNotApplicable | .invalidValue _ _ => 422
  | .methodNotAllowed _ _ | .unsupportedMethod _ => 405
  | .notFound _ => 404
  | .io | .engine _ | .config _ | .storage _ | .invalidSchema _ => 500

/-- The parameter, or the kind of failure, that the messages are listed under. -/
def key : Error → String
  | .unknownParameter name => name
  | .invalidValue param _ => param
  | .fieldsNotApplicable => "fields"
  | .orderNotApplicable => "order"
  | .methodNotAllowed _ _ | .unsupportedMethod _ => "method"
  | .notFound _ => "not_found"
  | .invalidSchema _ => "schema"
  | .io | .engine _ | .config _ | .storage _ => "internal"

end Error

/-- The report of a failure: a status, and messages by name. -/
structure Failure where
  status : Nat
  errors : OrderedMap (List String)
  deriving DecidableEq, Repr

/-- The report of an error. -/
def Error.failure (e : Error) : Failure where
  status := e.status
  errors := OrderedMap.empty.insert e.key [e.message]

namespace Failure

/-- The first message of all. -/
def message? (f : Failure) : Option String :=
  f.errors.values.head?.bind List.head?

/-- The report with status 200 if the request asked for it. -/
def suppressed (f : Failure) (suppress : Bool) : Failure :=
  if suppress then { f with status := 200 } else f

end Failure

end ParamQuery
