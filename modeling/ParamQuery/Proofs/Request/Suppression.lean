import ParamQuery.Proofs.Request.Spellings

/-!
# The suppression parameter

The suppression parameter decides about the status of failures and about nothing else. It is left
out before names are checked, so that it is neither unknown nor a second spelling of another
parameter, even of one that an endpoint declares under its name.

## Main definitions

* `Params.others` — the parameters of a request apart from the suppression parameter.

## Main statements

* `addCanonical_filter` — the run over the names passes the suppression parameter over.
* `Endpoint.compile_others` — a request compiles as it does without the suppression parameter.
* `Endpoint.ignores_suppression` — requests that differ in it compile alike, and their failures are
  reported alike but for the status.
-/

namespace ParamQuery

/-- The parameters of a request, in the order received, without spellings of the suppression
parameter. -/
def Params.others (params : Params) : Params :=
  params.restrict fun name => !isSuppression name

theorem Params.suppressesStatus_iff {params : Params} :
    params.suppressesStatus = true ↔
      ∃ name ∈ params.keys, canonical name = canonical suppressionName := by
  simp [suppressesStatus, isSuppression]

/-! ## Names -/

/-- The run over the names passes the suppression parameter over, wherever it stands. -/
theorem addCanonical_filter (schema : EndpointSchema) (sent : OrderedMap ParamValue)
    (entries : List (String × ParamValue)) :
    addCanonical schema sent (entries.filter fun entry => !isSuppression entry.1) =
      addCanonical schema sent entries := by
  induction entries generalizing sent with
  | nil => rfl
  | cons entry rest ih =>
    obtain ⟨name, value⟩ := entry
    cases hname : isSuppression name with
    | true => simp [addCanonical, hname, ih]
    | false => simp [addCanonical, hname, ih]

theorem canonicalParams_others (schema : EndpointSchema) (params : Params) :
    canonicalParams schema params.others = canonicalParams schema params :=
  addCanonical_filter schema ∅ params.entries

/-! ## Requests -/

theorem Error.status_ne_200 (error : Error) : error.status ≠ 200 := by
  cases error <;> simp [status]

namespace Endpoint

/-- A request compiles as it does without the suppression parameter. -/
theorem compile_others (e : Endpoint) (method : Method) (params : Params) :
    e.compile method params.others = e.compile method params := by
  rw [compile_eq, compile_eq, canonicalParams_others]

theorem status_failure (e : Endpoint) (error : Error) (params : Params) :
    (e.failure error params).status =
      if params.suppressesStatus then 200 else error.status := by
  unfold failure Failure.suppressed
  split <;> rfl

theorem errors_failure (e : Endpoint) (error : Error) (params : Params) :
    (e.failure error params).errors = error.failure.errors := by
  unfold failure Failure.suppressed
  split <;> rfl

/-- Requests that send the same apart from the suppression parameter, in whatever spellings and at
whatever places that stands in them, have the same intent or fail with the same error. A failure is
reported with status 200 if and only if the suppression parameter was sent, and with the same
messages under the same names in any case. -/
theorem ignores_suppression (e : Endpoint) (method : Method) (params : Params) :
    (∀ params' : Params, params'.others = params.others →
      e.compile method params' = e.compile method params) ∧
    ∀ error : Error,
      ((e.failure error params).status = 200 ↔
        ∃ name ∈ params.keys, canonical name = canonical suppressionName) ∧
      (e.failure error params).errors = error.failure.errors := by
  constructor
  · intro params' hothers
    rw [← compile_others e method params', hothers, compile_others]
  · intro error
    refine ⟨?_, errors_failure e error params⟩
    rw [← Params.suppressesStatus_iff, status_failure]
    have hstatus := error.status_ne_200
    split <;> simp_all

/-- An endpoint that declares and requires a parameter with the name of the suppression
parameter. -/
def requiring : Endpoint where
  config := {}
  schema :=
    { body := some ["suppress_response_http_status_code"]
      rules := .ofList [("suppress_response_http_status_code", { required := true })] }

/-- The declared parameter is passed over as well: it is missing, sent or not. -/
theorem requiring_ignores_suppression :
    requiring.compile .post ∅ =
      .error (.invalidValue "suppress_response_http_status_code" .missing) ∧
    requiring.compile .post (.ofList [("suppress response-HttpStatusCode", .single "1")]) =
      requiring.compile .post ∅ ∧
    ∀ error, (requiring.failure error
      (.ofList [("suppress response-HttpStatusCode", .single "1")])).status = 200 := by
  obtain ⟨hcompile, _⟩ := ignores_suppression requiring .post ∅
  refine ⟨rfl, hcompile _ rfl, fun error => ?_⟩
  obtain ⟨_, hfailure⟩ := ignores_suppression requiring .post
    (.ofList [("suppress response-HttpStatusCode", .single "1")])
  exact (hfailure error).1.2 ⟨"suppress response-HttpStatusCode", by decide, by decide⟩

end Endpoint

end ParamQuery
