import ParamQuery.Proofs.Request.Checks
import ParamQuery.Proofs.Request.Names

/-!
# Requests that are accepted

Which requests pass the checks of an endpoint, said feature by feature about what was sent, without
the map of canonical names that the checks work on and the order in which they are made.

## Main definitions

* `FieldAllowList.Permits` — a selection stays within a list and suits the method.
* `EndpointSchema.Admits` — what was sent for one feature is in order.
* `EndpointSchema.Accepts` — a request is in order.

## Main statements

* `exists_validateCapability_iff` — when the values of one feature pass.
* `validate_succeeds_iff` — exactly the requests that are in order pass.
-/

namespace ParamQuery

/-! ## What is in order -/

/-- The columns of a selection are on the list, or are names of relations on it; its relations are
on the list with all columns asked of them; and a request that creates a row asks for no relation at
all. -/
structure FieldAllowList.Permits (allow : FieldAllowList) (method : Method) (s : FieldSelection) :
    Prop where
  columns : ∀ column ∈ s.select, column ∈ allow.columns ∨ column ∈ allow.relations.keys
  relations : ∀ name fields, s.relations.get? name = some fields →
    ∃ allowed, allow.relations.get? name = some allowed ∧ ∀ field ∈ fields, field ∈ allowed
  creating : method = .post →
    s.relations.keys = [] ∧ ∀ column ∈ s.select, column ∉ allow.relations.keys

namespace EndpointSchema

/-- A value of a filter key or of a column to write is one text that its rule admits, and there is
one if the rule requires it. -/
structure AdmitsKey (schema : EndpointSchema) (params : Params) (key : String) : Prop where
  value : ∀ value, params.Sends key value →
    ∃ text, value = .single text ∧ (schema.rule key).Admits text
  required : (schema.rule key).required = true → ∃ value, params.Sends key value

theorem admitsKey_iff {schema : EndpointSchema} {params : Params} {key : String} :
    schema.AdmitsKey params key ↔
      (∀ value, params.Sends key value →
        ∃ text, value = .single text ∧ (schema.rule key).Admits text) ∧
      ((schema.rule key).required = true → ∃ value, params.Sends key value) :=
  ⟨fun h => ⟨h.value, h.required⟩, fun h => ⟨h.1, h.2⟩⟩

/-- What was sent for a feature is in order. -/
def Admits (schema : EndpointSchema) (config : Config) (method : Method) (params : Params) :
    Capability → Prop
  | .pagination =>
    (∀ value, params.Sends "limit" value →
      ∃ n, value.IsCount n ∧ 1 ≤ n ∧ ∀ max, config.maxLimit = some max → n ≤ max) ∧
    ∀ value, params.Sends "offset" value → ∃ n, value.IsCount n
  | .search => ∀ value, params.Sends "q" value → ∃ text, value = .single text
  | .fields => ∀ allow, schema.fields = some allow → ∀ value, params.Sends "fields" value →
    allow.Permits method (.parse (canonicalFields value.joined))
  | .order => ∀ columns, schema.order = some columns → ∀ value, params.Sends "order" value →
    value.IsOrder columns
  | .filter => ∀ key ∈ schema.filterKeys, schema.AdmitsKey params key
  | .body => ∀ key ∈ schema.bodyColumns, schema.AdmitsKey params key
  | .relations => True

/-- A request is in order: its method suits every declared feature; every name is, in canonical
form, that of a declared parameter, and no parameter is sent in two spellings, spellings of the
suppression parameter aside; and what was sent for every declared feature is in order. -/
structure Accepts (schema : EndpointSchema) (config : Config) (method : Method) (params : Params) :
    Prop where
  suits : ∀ c ∈ schema.declared, c.allows method = true
  declared : ∀ name ∈ params.keys, isSuppression name = false →
    schema.declares (canonical name) = true
  distinct : ∀ a ∈ params.keys, ∀ b ∈ params.keys, isSuppression a = false →
    canonical a = canonical b → a = b
  values : ∀ c ∈ schema.declared, schema.Admits config method params c

end EndpointSchema

/-! ## The checks -/

section

variable {config : Config} {schema : EndpointSchema} {sent : OrderedMap ParamValue}
  {valid : ValidParams}

/-- There is something to take, with a value that stands in for what is missing, if there is
something to take for what is there. -/
theorem exists_or_standing_iff {α β : Type} {sent : Option α} (standing : β)
    {p : α → β → Prop} :
    (∃ b, (∀ a, sent = some a → p a b) ∧ (sent = none → b = standing)) ↔
      ∀ a, sent = some a → ∃ b, p a b := by
  cases sent with
  | none => simp
  | some a => simp

theorem exists_validatePagination_iff :
    (∃ valid', validatePagination config sent valid = .ok valid') ↔
      (∀ value, sent.get? "limit" = some value →
        ∃ n, value.IsCount n ∧ 1 ≤ n ∧ ∀ max, config.maxLimit = some max → n ≤ max) ∧
      ∀ value, sent.get? "offset" = some value → ∃ n, value.IsCount n := by
  simp only [validatePagination_eq_ok_iff]
  rw [← exists_or_standing_iff valid.limit, ← exists_or_standing_iff valid.offset]
  constructor
  · rintro ⟨_, limit, offset, hlimit, hlimit', hoffset, hoffset', _⟩
    exact ⟨⟨limit, hlimit, hlimit'⟩, offset, hoffset, hoffset'⟩
  · rintro ⟨⟨limit, hlimit, hlimit'⟩, offset, hoffset, hoffset'⟩
    exact ⟨_, limit, offset, hlimit, hlimit', hoffset, hoffset', rfl⟩

theorem exists_validateSearch_iff :
    (∃ valid', validateSearch sent valid = .ok valid') ↔
      ∀ value, sent.get? "q" = some value → ∃ text, value = .single text := by
  simp only [validateSearch_eq_ok_iff]
  rw [← exists_or_standing_iff ""]
  constructor
  · rintro ⟨_, q, hq, hq', _⟩
    exact ⟨q, hq, hq'⟩
  · rintro ⟨q, hq, hq'⟩
    exact ⟨_, q, hq, hq', rfl⟩

namespace FieldAllowList

variable {allow : FieldAllowList} {s : FieldSelection}

theorem allowsRelation_iff {name : String} {fields : List String} :
    allow.allowsRelation name fields = true ↔
      ∃ allowed, allow.relations.get? name = some allowed ∧ ∀ field ∈ fields, field ∈ allowed := by
  unfold allowsRelation
  cases allow.relations.get? name <;> simp

theorem allows_iff :
    allow.allows s = true ↔
      (∀ column ∈ s.select, column ∈ allow.columns ∨ column ∈ allow.relations.keys) ∧
        ∀ name fields, s.relations.get? name = some fields →
          ∃ allowed, allow.relations.get? name = some allowed ∧ ∀ field ∈ fields, field ∈ allowed := by
  simp only [allows, Bool.and_eq_true, List.all_eq_true, Bool.or_eq_true, List.contains_iff_mem,
    isRelation, OrderedMap.contains_iff, Prod.forall, allowsRelation_iff,
    OrderedMap.get?_eq_some_iff]

theorem wantsRelation_eq_false_iff :
    s.wantsRelation allow = false ↔
      s.relations.keys = [] ∧ ∀ column ∈ s.select, column ∉ allow.relations.keys := by
  simp only [FieldSelection.wantsRelation, Bool.or_eq_false_iff, Bool.not_eq_false',
    List.any_eq_false, isRelation, OrderedMap.contains_iff, OrderedMap.isEmpty, List.isEmpty_iff,
    OrderedMap.keys, Assoc.keys, List.map_eq_nil_iff]

/-- Relations suit the methods that fields suit, but for one. -/
theorem allows_relations_of_allows_fields {method : Method}
    (h : Capability.fields.allows method = true) :
    Capability.relations.allows method = true ↔ method ≠ .post := by
  cases method with
  | get => decide
  | post => decide
  | put => decide
  | delete => exact absurd h (by decide)

/-- Where fields may be sent, a selection passes if it is permitted. -/
theorem permits_iff {method : Method} (h : Capability.fields.allows method = true) :
    allow.Permits method s ↔
      allow.allows s = true ∧
        (s.wantsRelation allow && !Capability.relations.allows method) = false := by
  have hpost : (s.wantsRelation allow && !Capability.relations.allows method) = false ↔
      (method = .post → s.wantsRelation allow = false) := by
    have hmethod := allows_relations_of_allows_fields h
    cases hallows : Capability.relations.allows method with
    | true => simp [hmethod.1 hallows]
    | false =>
      have hpost : method = .post := by
        by_contra hne
        rw [hmethod.2 hne] at hallows
        cases hallows
      simp [hpost]
  rw [hpost, allows_iff, wantsRelation_eq_false_iff]
  exact ⟨fun h => ⟨⟨h.columns, h.relations⟩, h.creating⟩, fun h => ⟨h.1.1, h.1.2, h.2⟩⟩

end FieldAllowList

theorem exists_validateFields_iff {allow : FieldAllowList}
    (h : Capability.fields.allows valid.method = true) :
    (∃ valid', validateFields allow sent valid = .ok valid') ↔
      ∀ value, sent.get? "fields" = some value →
        allow.Permits valid.method (.parse (canonicalFields value.joined)) := by
  simp only [validateFields_eq_ok_iff]
  cases sent.get? "fields" with
  | none => simp
  | some value => simp [FieldAllowList.permits_iff h]

theorem exists_validateOrder_iff {columns : List String} :
    (∃ valid', validateOrder columns sent valid = .ok valid') ↔
      ∀ value, sent.get? "order" = some value → value.IsOrder columns := by
  simp only [validateOrder_eq_ok_iff]
  cases sent.get? "order" with
  | none => simp
  | some value => simp [← exists_applicableOrder?_iff]

/-- Keys are checked one after the other, each by what was sent for it alone. -/
theorem exists_validateKeys_iff {keys : List String} :
    (∃ valid', validateKeys schema sent keys valid = .ok valid') ↔
      ∀ key ∈ keys,
        (∀ value, sent.get? key = some value →
          ∃ text, value = .single text ∧ (schema.rule key).Admits text) ∧
        ((schema.rule key).required = true → ∃ value, sent.get? key = some value) := by
  induction keys generalizing valid with
  | nil => simp [validateKeys]
  | cons key rest ih =>
    simp only [validateKeys_cons_eq_ok_iff, List.forall_mem_cons]
    constructor
    · rintro ⟨valid', ⟨text, hsent, hadmits, h⟩ | ⟨hsent, hrequired, h⟩⟩
      · refine ⟨⟨fun value hvalue => ?_, fun _ => ⟨_, hsent⟩⟩, ih.1 ⟨valid', h⟩⟩
        rw [hsent, Option.some.injEq] at hvalue
        exact ⟨text, hvalue.symm, hadmits⟩
      · refine ⟨⟨fun value hvalue => ?_, fun h => ?_⟩, ih.1 ⟨valid', h⟩⟩
        · rw [hsent] at hvalue
          cases hvalue
        · rw [hrequired] at h
          cases h
    · rintro ⟨⟨hvalue, hrequired⟩, hrest⟩
      cases hsent : sent.get? key with
      | none =>
        obtain ⟨valid', h⟩ := ih.2 hrest
        have hoptional : (schema.rule key).required = false := by
          by_contra hrequires
          rw [Bool.not_eq_false] at hrequires
          obtain ⟨value, hvalue⟩ := hrequired hrequires
          rw [hsent] at hvalue
          cases hvalue
        exact ⟨valid', .inr ⟨rfl, hoptional, h⟩⟩
      | some value =>
        obtain ⟨text, rfl, hadmits⟩ := hvalue value hsent
        obtain ⟨valid', h⟩ := ih.2 hrest
        exact ⟨valid', .inl ⟨text, rfl, hadmits, h⟩⟩

end

/-! ## Requests -/

/-- Whether the values of a declared feature pass is decided by what was sent for it. -/
theorem exists_validateCapability_iff {config : Config} {schema : EndpointSchema} {params : Params}
    {sent : OrderedMap ParamValue} {valid : ValidParams} {c : Capability}
    (hsent : sent.entries = canonicalEntries params.entries) (hc : c ∈ schema.declared)
    (hallows : c.allows valid.method = true) :
    (∃ valid', validateCapability config schema sent valid c = .ok valid') ↔
      schema.Admits config valid.method params c := by
  cases c with
  | pagination =>
    simp only [validateCapability, exists_validatePagination_iff, EndpointSchema.Admits,
      Params.get?_iff_sends hsent]
  | search =>
    simp only [validateCapability, exists_validateSearch_iff, EndpointSchema.Admits,
      Params.get?_iff_sends hsent]
  | fields =>
    obtain ⟨allow, hallow⟩ : ∃ allow, schema.fields = some allow := by
      simpa [EndpointSchema.declared, Option.isSome_iff_exists] using hc
    simp only [validateCapability, hallow, Option.getD_some, exists_validateFields_iff hallows,
      EndpointSchema.Admits, Params.get?_iff_sends hsent, Option.some.injEq, forall_eq']
  | order =>
    obtain ⟨columns, hcolumns⟩ : ∃ columns, schema.order = some columns := by
      simpa [EndpointSchema.declared, Option.isSome_iff_exists] using hc
    simp only [validateCapability, hcolumns, Option.getD_some, exists_validateOrder_iff,
      EndpointSchema.Admits, Params.get?_iff_sends hsent, Option.some.injEq, forall_eq']
  | filter =>
    simp only [validateCapability, exists_validateKeys_iff, EndpointSchema.Admits,
      EndpointSchema.admitsKey_iff, Params.get?_iff_sends hsent]
  | body =>
    simp only [validateCapability, exists_validateKeys_iff, EndpointSchema.Admits,
      EndpointSchema.admitsKey_iff, Params.get?_iff_sends hsent]
  | relations => simp [validateCapability, EndpointSchema.Admits]

/-- A request passes all checks if and only if it is in order. -/
theorem validate_succeeds_iff {config : Config} {schema : EndpointSchema} {method : Method}
    {params : Params} :
    (∃ valid, validate config schema method params = .ok valid) ↔
      schema.Accepts config method params := by
  have hdeclares := params.forall_canonicalEntries_iff (p := fun name => schema.declares name = true)
  have hvalues (sent : OrderedMap ParamValue)
      (hsent : sent.entries = canonicalEntries params.entries)
      (hsuits : ∀ c ∈ schema.declared, c.allows method = true) :
      (∃ valid, schema.declared.foldlM
          (fun valid c => validateCapability config schema sent valid c)
          (.initial config method params) = .ok valid) ↔
        ∀ c ∈ schema.declared, schema.Admits config method params c := by
    -- no check of a value depends on what the others recorded, but for the method
    refine exists_foldlM_iff (P := fun valid => valid.method = method) ?_ ?_ rfl
    · rintro c hc valid rfl
      exact exists_validateCapability_iff hsent hc (hsuits c hc)
    · rintro c - valid valid' rfl h
      exact method_of_validateCapability h
  simp only [validate_eq_ok_iff, canonicalParams_eq_ok_iff]
  constructor
  · rintro ⟨valid, hsuits, sent, ⟨hdeclared, hnodup, hsent⟩, h⟩
    exact ⟨hsuits, hdeclares.1 hdeclared, Params.nodup_canonicalEntries_iff.1 hnodup,
      (hvalues sent hsent hsuits).1 ⟨valid, h⟩⟩
  · rintro ⟨hsuits, hdeclared, hdistinct, hadmits⟩
    have hnodup := Params.nodup_canonicalEntries_iff.2 hdistinct
    obtain ⟨valid, h⟩ := (hvalues ⟨canonicalEntries params.entries, hnodup⟩ rfl hsuits).2 hadmits
    exact ⟨valid, hsuits, _, ⟨hdeclares.2 hdeclared, hnodup, rfl⟩, h⟩

end ParamQuery
