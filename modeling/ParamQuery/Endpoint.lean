import ParamQuery.Intent

/-!
# Endpoints

A configuration and a declaration that were checked together, and the compilation of requests.

## Main definitions

* `Endpoint.create` — checks a configuration and a declaration.
* `Endpoint.compile` — the intent of a request, or why there is none.
* `Endpoint.failure` — how an error is reported for a request.
-/

namespace ParamQuery

structure Endpoint where
  config : Config
  schema : EndpointSchema
  deriving DecidableEq, Repr

namespace Endpoint

/-- Checks the configuration, the declaration, and, where orders are declared, the default order. -/
def create (config : Config) (schema : EndpointSchema) : Except Error Endpoint := do
  config.check
  schema.check
  if schema.order.isSome then
    let _ ← config.order
  pure ⟨config, schema⟩

def capabilities (e : Endpoint) : Capabilities := e.schema.capabilities

/-- The intent of a request. -/
def compile (e : Endpoint) (method : Method) (params : Params) : Except Error QueryIntent := do
  let valid ← validate e.config e.schema method params
  QueryIntent.build e.config e.schema valid

/-- The report of an error, with status 200 if the request asks for it. -/
def failure (_e : Endpoint) (error : Error) (params : Params) : Failure :=
  error.failure.suppressed params.suppressesStatus

end Endpoint

end ParamQuery
