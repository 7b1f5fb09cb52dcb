import ParamQuery.Proofs.Request.Refusals

/-!
# Spellings and order of what is sent

A request may spell its names in several ways and list its parameters in any order. Once the names
are accepted none of this matters: the intent, with the order of all its lists and maps, or the
error, is the same.

## Main definitions

* `Endpoint.compileSent` — the intent of parameters that were read by canonical name.

## Main statements

* `Endpoint.compile_eq` — a request is its method, its names, and what was read under them.
* `Endpoint.compileSent_congr` — only what was read under each name matters.
* `Endpoint.compile_of_perm` — the same parameters, in other spellings and in another order.
-/

namespace ParamQuery

variable {config : Config} {schema : EndpointSchema} {sent sent' : OrderedMap ParamValue}
  {valid : ValidParams}

/-! ## What was read under each name -/

theorem validateKeys_congr (h : ∀ name, sent.get? name = sent'.get? name) (keys : List String)
    (valid : ValidParams) :
    validateKeys schema sent keys valid = validateKeys schema sent' keys valid := by
  induction keys generalizing valid with
  | nil => rfl
  | cons key rest ih =>
    rw [validateKeys, validateKeys, h key]
    simp only [ih]

/-- The check of a feature looks its parameters up by name. -/
theorem validateCapability_congr (h : ∀ name, sent.get? name = sent'.get? name) (c : Capability)
    (valid : ValidParams) :
    validateCapability config schema sent valid c =
      validateCapability config schema sent' valid c := by
  cases c with
  | pagination => simp only [validateCapability, validatePagination, h]
  | search => simp only [validateCapability, validateSearch, h]
  | fields => simp only [validateCapability, validateFields, h]
  | order => simp only [validateCapability, validateOrder, h]
  | filter => exact validateKeys_congr h _ valid
  | body => exact validateKeys_congr h _ valid
  | relations => rfl

/-! ## The suppression parameter -/

/-- The same parameters with another note of whether the suppression parameter was sent. -/
def ValidParams.marked (suppress : Bool) (valid : ValidParams) : ValidParams :=
  { valid with suppressStatus := suppress }

theorem validateKeys_marked (suppress : Bool) (keys : List String) (valid : ValidParams) :
    validateKeys schema sent keys (valid.marked suppress) =
      (validateKeys schema sent keys valid).map (.marked suppress) := by
  induction keys generalizing valid with
  | nil => rfl
  | cons key rest ih =>
    rw [validateKeys, validateKeys]
    cases sent.get? key with
    | none =>
      dsimp only
      split
      · rfl
      · exact ih valid
    | some value =>
      refine bind_eq_map_bind fun text => ?_
      cases (schema.rule key).fault? text with
      | some fault => rfl
      | none => exact ih { valid with values := valid.values.insert key text }

theorem validateCapability_marked (suppress : Bool) (c : Capability) (valid : ValidParams) :
    validateCapability config schema sent (valid.marked suppress) c =
      (validateCapability config schema sent valid c).map (.marked suppress) := by
  cases c with
  | pagination =>
    simp only [validateCapability, validatePagination]
    cases sent.get? "limit" <;> refine bind_eq_map_bind fun limit => ?_ <;>
      cases sent.get? "offset" <;> exact bind_eq_map_bind fun offset => rfl
  | search =>
    simp only [validateCapability, validateSearch]
    cases sent.get? "q" with
    | none => rfl
    | some value => exact bind_eq_map_bind fun q => rfl
  | fields =>
    simp only [validateCapability, validateFields]
    cases sent.get? "fields" with
    | none => rfl
    | some value =>
      generalize FieldSelection.parse (canonicalFields value.joined) = selection
      simp only [apply_ite (Except.map (ValidParams.marked suppress))]
      rfl
  | order =>
    simp only [validateCapability, validateOrder]
    cases sent.get? "order" with
    | none => rfl
    | some value =>
      dsimp only
      cases applicableOrder? (schema.order.getD []) value <;> rfl
  | filter => exact validateKeys_marked suppress _ valid
  | body => exact validateKeys_marked suppress _ valid
  | relations => rfl

theorem addConditions_marked (suppress : Bool) (names : List String) (filter : FilterSet) :
    addConditions (valid.marked suppress) names filter = addConditions valid names filter := by
  induction names generalizing filter with
  | nil => rfl
  | cons name rest ih =>
    rw [addConditions, addConditions]
    simp only [ih]
    rfl

theorem build_marked (suppress : Bool) :
    QueryIntent.build config schema (valid.marked suppress) =
      QueryIntent.build config schema valid := by
  rw [QueryIntent.build, QueryIntent.build, addConditions_marked]
  rfl

namespace Endpoint

variable {e : Endpoint} {method : Method} {params params' : Params}

/-! ## Requests -/

/-- The intent of parameters that were read by canonical name. -/
def compileSent (e : Endpoint) (method : Method) (sent : OrderedMap ParamValue) :
    Except Error QueryIntent := do
  let valid ← e.schema.declared.foldlM
    (fun valid c => validateCapability e.config e.schema sent valid c)
    (.initial e.config method ∅)
  QueryIntent.build e.config e.schema valid

/-- A request is compiled from what is read under the names, once its method and its names are
accepted. -/
theorem compile_eq : e.compile method params = (do
    checkMethod e.schema method
    let sent ← canonicalParams e.schema params
    e.compileSent method sent) := by
  have hinitial : ValidParams.initial e.config method params =
      (ValidParams.initial e.config method ∅).marked params.suppressesStatus := rfl
  -- no check looks at the note of the suppression parameter, so it may as well be made at the end
  simp only [compile, validate, bind_assoc]
  refine bind_congr fun _ => bind_congr fun sent => ?_
  rw [hinitial, foldlM_map fun c _ valid => validateCapability_marked _ c valid, compileSent]
  cases e.schema.declared.foldlM
      (fun valid c => validateCapability e.config e.schema sent valid c)
      (.initial e.config method ∅) with
  | error e => rfl
  | ok valid => exact build_marked _

/-- Parameters that are read alike compile alike. -/
theorem compileSent_congr (h : ∀ name, sent.get? name = sent'.get? name) :
    e.compileSent method sent = e.compileSent method sent' := by
  have hstep : (fun valid c => validateCapability e.config e.schema sent valid c) =
      fun valid c => validateCapability e.config e.schema sent' valid c :=
    funext fun valid => funext fun c => validateCapability_congr h c valid
  rw [compileSent, compileSent, hstep]

/-- Requests whose names are accepted compile to the same intent or fail with the same error if
they send the same values under the same canonical names. -/
theorem compile_eq_of_perm {sent : OrderedMap ParamValue}
    (h : (canonicalEntries params.entries).Perm (canonicalEntries params'.entries))
    (hsent : canonicalParams e.schema params = .ok sent) :
    e.compile method params = e.compile method params' := by
  obtain ⟨hdeclares, hnodup, hentries⟩ := canonicalParams_eq_ok_iff.1 hsent
  have hnodup' : (Assoc.keys (canonicalEntries params'.entries)).Nodup :=
    (h.map Prod.fst).nodup_iff.1 hnodup
  have hsent' : canonicalParams e.schema params' = .ok ⟨_, hnodup'⟩ :=
    canonicalParams_eq_ok_iff.2
      ⟨fun entry hentry => hdeclares entry (h.mem_iff.2 hentry), hnodup', rfl⟩
  have hread (name : String) : sent.get? name = OrderedMap.get? ⟨_, hnodup'⟩ name :=
    OrderedMap.get?_eq_of_perm (hentries ▸ h) name
  rw [compile_eq, compile_eq, hsent, hsent']
  exact bind_congr fun _ => compileSent_congr hread

/-- A request and one that sends the same values under the same canonical names, in other spellings
and in another order, have the same intent or fail with the same error, unless both are refused for
their names. -/
theorem compile_of_perm (e : Endpoint) (method : Method)
    (h : (canonicalEntries params.entries).Perm (canonicalEntries params'.entries)) :
    (∃ err err', e.compile method params = .error err ∧ e.compile method params' = .error err' ∧
      e.schema.RefusesName params.keys err ∧ e.schema.RefusesName params'.keys err') ∨
    e.compile method params = e.compile method params' := by
  cases hmethod : checkMethod e.schema method with
  | error err =>
    refine .inr ?_
    rw [compile_eq, compile_eq, hmethod]
    rfl
  | ok _ =>
    cases hsent : canonicalParams e.schema params with
    | ok sent => exact .inr (compile_eq_of_perm h hsent)
    | error err =>
      cases hsent' : canonicalParams e.schema params' with
      | ok sent' => exact .inr (compile_eq_of_perm h.symm hsent').symm
      | error err' =>
        refine .inl ⟨err, err', ?_, ?_, refusesName_of_canonicalParams hsent,
          refusesName_of_canonicalParams hsent'⟩
        · rw [compile_eq, hmethod, hsent]
          rfl
        · rw [compile_eq, hmethod, hsent']
          rfl

/-- A filter key and an order. -/
def orderedParams : Params := .ofList [("nameGt", .single "m"), ("Order", .single "id.desc")]

/-- The same in other spellings and the other way round, beside the suppression parameter. -/
def respelledOrder : Params := .ofList [("suppress-response-http-status-code", .single ""),
  ("order", .single "id.desc"), ("name-gt", .single "m")]

theorem compile_of_respelled :
    (canonicalEntries orderedParams.entries).Perm (canonicalEntries respelledOrder.entries) ∧
      ordered.compile .get orderedParams = ordered.compile .get respelledOrder := by
  have hperm : (canonicalEntries orderedParams.entries).Perm
      (canonicalEntries respelledOrder.entries) := by decide
  refine ⟨hperm, (compile_of_perm ordered .get hperm).resolve_left ?_⟩
  rintro ⟨err, _, herr, _⟩
  cases herr

end Endpoint

end ParamQuery
