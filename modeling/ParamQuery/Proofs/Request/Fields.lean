import ParamQuery.Proofs.FieldTokens
import ParamQuery.Proofs.Request.Accepted
import ParamQuery.Proofs.Selection

/-!
# The fields of a request

What a request selects, said about the entries of its fields as they were sent. The selection stays
within the list of the endpoint, and every entry that names something is granted, with one
exception: an entry that asks for a whole relation is narrowed by any other entry that asks for a
column of this relation.

## Main definitions

* `ParamValue.fields` — the entries of a value, in canonical form.
* `FieldSelection.Grants` — a selection holds what an entry asks for.
* `FieldToken.IsNarrowed` — an entry asks for a relation of which others ask for columns.

## Main statements

* `ParamValue.mem_select_requested`, `ParamValue.mem_relations_requested`,
  `ParamValue.mem_subfields_requested` — the selection that the entries of a value make.
* `within_of_validateFields` — the selection of accepted fields stays within the list.
* `grants_iff_of_validateFields` — which entries of accepted fields are granted.
-/

namespace ParamQuery

/-- The entries of a value, in canonical form. -/
def ParamValue.fields (value : ParamValue) : List FieldToken :=
  (fieldTokens value.joined).map FieldToken.canonical

/-- The selection that a value asks for, where plain names of relations ask for these. -/
def ParamValue.requested (value : ParamValue) (allow : FieldAllowList) : FieldSelection :=
  (FieldSelection.parse (canonicalFields value.joined)).promoteRelations allow

/-- A selection holds what an entry asks for: a column, or a whole relation of this name; a column
of a relation, among those selected or as one of all. -/
inductive FieldSelection.Grants (s : FieldSelection) (allow : FieldAllowList) :
    FieldToken → Prop where
  | column {name : String} : name ∈ s.select → Grants s allow (.column name)
  | relation {name : String} : allow.isRelation name = true → s.relations.get? name = some [] →
    Grants s allow (.column name)
  | subfield {relation field : String} {fields : List String} :
    s.relations.get? relation = some fields → field ∈ fields ∨ fields = [] →
    Grants s allow (.subfield relation field)

namespace FieldToken

/-- The relation that an entry asks for as a whole. -/
def whole? (allow : FieldAllowList) : FieldToken → Option String
  | .column name => if allow.isRelation name then some name else none
  | .subfield relation field => if field = "" then some relation else none

/-- An entry asks for a whole relation, and some entry asks for a column of it. -/
def IsNarrowed (token : FieldToken) (allow : FieldAllowList) (tokens : List FieldToken) : Prop :=
  ∃ relation field, token.whole? allow = some relation ∧ field ≠ "" ∧
    .subfield relation field ∈ tokens

end FieldToken

namespace ParamValue

variable {value : ParamValue} {allow : FieldAllowList} {column relation field : String}
  {token : FieldToken}

/-! ## The selection that is asked for -/

theorem mem_fieldTokens_canonicalFields :
    token ∈ fieldTokens (canonicalFields value.joined) ↔
      token ∈ value.fields ∧ token ≠ .column "" := by
  rw [fieldTokens_canonicalFields, List.mem_filter, decide_eq_true_eq]
  rfl

theorem mem_select_requested :
    column ∈ (value.requested allow).select ↔
      .column column ∈ value.fields ∧ column ≠ "" ∧ allow.isRelation column = false := by
  rw [requested, FieldSelection.mem_select_promoteRelations, FieldSelection.mem_select_parse,
    mem_fieldTokens_canonicalFields, and_assoc, ne_eq, FieldToken.column.injEq]

theorem mem_relations_requested :
    relation ∈ (value.requested allow).relations.keys ↔
      (∃ field, .subfield relation field ∈ value.fields) ∨
        .column relation ∈ value.fields ∧ relation ≠ "" ∧ allow.isRelation relation = true := by
  simp only [requested, FieldSelection.mem_relations_promoteRelations,
    FieldSelection.mem_relations_parse, FieldSelection.mem_select_parse,
    mem_fieldTokens_canonicalFields, and_assoc, ne_eq, FieldToken.column.injEq, reduceCtorEq,
    not_false_eq_true, and_true]

theorem mem_subfields_requested :
    field ∈ (value.requested allow).subfields relation ↔
      field ≠ "" ∧ .subfield relation field ∈ value.fields := by
  simp [requested, FieldSelection.subfields_promoteRelations, FieldSelection.mem_subfields_parse,
    mem_fieldTokens_canonicalFields]

theorem subfields_requested_eq_nil_iff :
    (value.requested allow).subfields relation = [] ↔
      ∀ field, field ≠ "" → .subfield relation field ∉ value.fields := by
  simp only [List.eq_nil_iff_forall_not_mem, mem_subfields_requested, not_and]

/-- A list of fields that asks for no relation, as a whole or in part, selects none. -/
theorem relations_requested_eq_nil
    (h : FieldSelection.wantsRelation (.parse (canonicalFields value.joined)) allow = false) :
    (value.requested allow).relations.keys = [] := by
  obtain ⟨hkeys, hselect⟩ := FieldAllowList.wantsRelation_eq_false_iff.1 h
  refine List.eq_nil_iff_forall_not_mem.2 fun relation hmem => ?_
  rcases FieldSelection.mem_relations_promoteRelations.1 hmem with hmem | ⟨hmem, hrelation⟩
  · rw [hkeys] at hmem
    cases hmem
  · exact hselect relation hmem (OrderedMap.contains_iff.1 hrelation)

/-- An entry that names something makes the selection hold something. -/
theorem isEmpty_requested (htoken : token ∈ value.fields) (hname : token ≠ .column "") :
    (value.requested allow).isEmpty = false := by
  by_contra hempty
  rw [Bool.not_eq_false, FieldSelection.isEmpty_iff] at hempty
  have hselect (name : String) : name ∉ (value.requested allow).select := by simp [hempty.1]
  have hrelations (name : String) : name ∉ (value.requested allow).relations.keys := by
    simp [hempty.2]
  cases token with
  | column name =>
    have hname : name ≠ "" := by simpa using hname
    cases hrelation : allow.isRelation name with
    | false => exact hselect name (mem_select_requested.2 ⟨htoken, hname, hrelation⟩)
    | true => exact hrelations name (mem_relations_requested.2 (.inr ⟨htoken, hname, hrelation⟩))
  | subfield relation field =>
    exact hrelations relation (mem_relations_requested.2 (.inl ⟨field, htoken⟩))

/-! ## What is granted -/

theorem isNarrowed_iff (hwhole : token.whole? allow = some relation) :
    token.IsNarrowed allow value.fields ↔ (value.requested allow).subfields relation ≠ [] := by
  simp [FieldToken.IsNarrowed, hwhole, subfields_requested_eq_nil_iff]

theorem not_isNarrowed (hwhole : token.whole? allow = none) :
    ¬ token.IsNarrowed allow value.fields := by
  simp [FieldToken.IsNarrowed, hwhole]

/-- The plain name of a relation is granted if no column of the relation is asked for. -/
theorem grants_relation_iff (hname : .column relation ∈ value.fields ∧ relation ≠ "")
    (hrelation : allow.isRelation relation = true) :
    (value.requested allow).Grants allow (.column relation) ↔
      (value.requested allow).subfields relation = [] := by
  have hmem : relation ∈ (value.requested allow).relations.keys :=
    mem_relations_requested.2 (.inr ⟨hname.1, hname.2, hrelation⟩)
  have hget := FieldSelection.get?_of_mem_relations hmem
  constructor
  · intro hgrants
    cases hgrants with
    | column hselect =>
      rw [(mem_select_requested.1 hselect).2.2] at hrelation
      cases hrelation
    | relation _ hnil => exact Option.some.inj (hget.symm.trans hnil)
  · intro hnil
    rw [hnil] at hget
    exact .relation hrelation hget

/-- A column of a relation is granted if it is listed, or if no column of the relation is. -/
theorem grants_subfield_iff (htoken : .subfield relation field ∈ value.fields) :
    (value.requested allow).Grants allow (.subfield relation field) ↔
      field ≠ "" ∨ (value.requested allow).subfields relation = [] := by
  have hmem : relation ∈ (value.requested allow).relations.keys :=
    mem_relations_requested.2 (.inl ⟨field, htoken⟩)
  have hget := FieldSelection.get?_of_mem_relations hmem
  have hlisted : field ∈ (value.requested allow).subfields relation ↔ field ≠ "" := by
    rw [mem_subfields_requested, and_iff_left htoken]
  rw [← hlisted]
  constructor
  · intro hgrants
    cases hgrants with
    | subfield hfields hfield =>
      obtain rfl := Option.some.inj (hget.symm.trans hfields)
      exact hfield
  · exact .subfield hget

/-- An entry that names something is granted unless it is narrowed. -/
theorem grants_requested_iff (htoken : token ∈ value.fields) (hname : token ≠ .column "") :
    (value.requested allow).Grants allow token ↔ ¬ token.IsNarrowed allow value.fields := by
  cases token with
  | column name =>
    have hname : name ≠ "" := by simpa using hname
    cases hrelation : allow.isRelation name with
    | false =>
      have hwhole : (FieldToken.column name).whole? allow = none := by
        simp [FieldToken.whole?, hrelation]
      have hselect : name ∈ (value.requested allow).select :=
        mem_select_requested.2 ⟨htoken, hname, hrelation⟩
      exact iff_of_true (.column hselect) (not_isNarrowed hwhole)
    | true =>
      have hwhole : (FieldToken.column name).whole? allow = some name := by
        simp [FieldToken.whole?, hrelation]
      rw [grants_relation_iff ⟨htoken, hname⟩ hrelation, isNarrowed_iff hwhole, not_not]
  | subfield relation field =>
    rw [grants_subfield_iff htoken]
    by_cases hfield : field = ""
    · have hwhole : (FieldToken.subfield relation field).whole? allow = some relation :=
        if_pos hfield
      rw [isNarrowed_iff hwhole, not_not]
      exact or_iff_right (not_not.2 hfield)
    · have hwhole : (FieldToken.subfield relation field).whole? allow = none := if_neg hfield
      exact iff_of_true (.inl hfield) (not_isNarrowed hwhole)

end ParamValue

variable {schema : EndpointSchema} {allow : FieldAllowList} {sent : OrderedMap ParamValue}
  {valid valid' : ValidParams} {value : ParamValue}

/-! ## The selection of a request -/

/-- Accepted fields are on the list, and ask for no relation where the method does not suit any. -/
theorem permitted_of_validateFields (hsent : sent.get? "fields" = some value)
    (h : validateFields allow sent valid = .ok valid') :
    allow.allows (.parse (canonicalFields value.joined)) = true ∧
      (Capability.relations.allows valid.method = false →
        FieldSelection.wantsRelation (.parse (canonicalFields value.joined)) allow = false) := by
  obtain ⟨hnone, _⟩ | ⟨value', hvalue', hallows, hmethod, _⟩ := validateFields_eq_ok_iff.1 h
  · rw [hsent] at hnone
    cases hnone
  · rw [hsent] at hvalue'
    obtain rfl := Option.some.inj hvalue'
    refine ⟨hallows, fun hrefused => ?_⟩
    simpa [hrefused] using hmethod

/-- Accepted fields select what they ask for, and the whole list if they ask for nothing. -/
theorem selectedFields_of_validateFields (hallow : schema.fields = some allow)
    (hsent : sent.get? "fields" = some value)
    (h : validateFields allow sent valid = .ok valid') :
    selectedFields schema valid' =
      if (value.requested allow).isEmpty then allow.toSelection else value.requested allow := by
  obtain ⟨hnone, _⟩ | ⟨value', hvalue', _, _, rfl⟩ := validateFields_eq_ok_iff.1 h
  · rw [hsent] at hnone
    cases hnone
  · rw [hsent] at hvalue'
    obtain rfl := Option.some.inj hvalue'
    simp only [selectedFields, hallow, OrderedMap.get?_insert, if_true]
    rfl

/-- The selection of accepted fields stays within the list, also where the list stands in because
none were sent or they ask for nothing. Where they ask for something, no relation is selected as a
column, and a request that creates a row selects no relation at all. -/
theorem within_of_validateFields (hallow : schema.fields = some allow)
    (hnew : valid.values.get? "fields" = none)
    (h : validateFields allow sent valid = .ok valid') :
    allow.Covers (selectedFields schema valid') ∧
      ∀ value, sent.get? "fields" = some value → (value.requested allow).isEmpty = false →
        (∀ column ∈ (selectedFields schema valid').select, column ∉ allow.relations.keys) ∧
        (valid.method = .post → (selectedFields schema valid').relations.keys = []) := by
  cases hsent : sent.get? "fields" with
  | none =>
    obtain ⟨_, rfl⟩ | ⟨_, hvalue, _⟩ := validateFields_eq_ok_iff.1 h
    · refine ⟨?_, nofun⟩
      simp only [selectedFields, hallow, hnew]
      exact allow.covers_toSelection
    · rw [hsent] at hvalue
      cases hvalue
  | some value =>
    obtain ⟨hallows, hmethod⟩ := permitted_of_validateFields hsent h
    rw [selectedFields_of_validateFields hallow hsent h]
    constructor
    · split
      · exact allow.covers_toSelection
      · exact FieldAllowList.covers_promoteRelations hallows
    · intro value' hvalue' hsome
      obtain rfl := Option.some.inj hvalue'
      rw [hsome, if_neg Bool.false_ne_true]
      constructor
      · intro column hcolumn hrelation
        have hplain := (ParamValue.mem_select_requested.1 hcolumn).2.2
        rw [FieldAllowList.isRelation, OrderedMap.contains_iff.2 hrelation] at hplain
        cases hplain
      · intro hpost
        exact ParamValue.relations_requested_eq_nil (hmethod (hpost ▸ rfl))

namespace EndpointSchema

/-- Customers with their orders, where a column is called like the relation. -/
def customerFields : FieldAllowList :=
  { columns := ["id", "orders"], relations := .ofList [("orders", ["total", "status"])] }

def customers : EndpointSchema := { fields := some customerFields }

/-- A request for orders. -/
def ordersWanted : Params := .ofList [("fields", .single "orders.total, ID,orders")]

/-- A request that names nothing beside the number of the customer. -/
def dashWanted : Params := .ofList [("fields", .single "id,-")]

end EndpointSchema

open EndpointSchema

theorem within_of_customers :
    ∃ valid, customers.fields = some customerFields ∧
      (ValidParams.initial {} .get ordersWanted).values.get? "fields" = none ∧
      validateFields customerFields ordersWanted (.initial {} .get ordersWanted) = .ok valid ∧
      customerFields.Covers (selectedFields customers valid) ∧
      ∀ column ∈ (selectedFields customers valid).select, column ∉ ["orders"] := by
  have hvalid : validateFields customerFields ordersWanted (.initial {} .get ordersWanted) =
      .ok _ := rfl
  have hwithin := within_of_validateFields (show customers.fields = _ from rfl) rfl hvalid
  exact ⟨_, rfl, rfl, hvalid, hwithin.1, (hwithin.2 _ rfl rfl).1⟩

/-- Of the entries of accepted fields that name something exactly those are granted that are not
narrowed; and a relation that is asked for as a whole lists exactly the columns that entries ask
for, all of them if it lists none. -/
theorem grants_iff_of_validateFields (hallow : schema.fields = some allow)
    (hsent : sent.get? "fields" = some value)
    (h : validateFields allow sent valid = .ok valid') :
    ∀ token ∈ value.fields, token ≠ .column "" →
      ((selectedFields schema valid').Grants allow token ↔
        ¬ token.IsNarrowed allow value.fields) ∧
      ∀ relation, token.whole? allow = some relation →
        ∀ field, field ∈ (selectedFields schema valid').subfields relation ↔
          field ≠ "" ∧ .subfield relation field ∈ value.fields := by
  intro token htoken hname
  have hselected : selectedFields schema valid' = value.requested allow := by
    rw [selectedFields_of_validateFields hallow hsent h, value.isEmpty_requested htoken hname]
    rfl
  rw [hselected]
  exact ⟨value.grants_requested_iff htoken hname, fun _ _ _ => value.mem_subfields_requested⟩

theorem grants_of_customers :
    ∃ valid, customers.fields = some customerFields ∧
      ordersWanted.get? "fields" = some (.single "orders.total, ID,orders") ∧
      validateFields customerFields ordersWanted (.initial {} .get ordersWanted) = .ok valid ∧
      FieldToken.column "id" ∈ (ParamValue.single "orders.total, ID,orders").fields ∧
      FieldToken.column "id" ≠ .column "" ∧
      (selectedFields customers valid).Grants customerFields (.column "id") := by
  have hvalid : validateFields customerFields ordersWanted (.initial {} .get ordersWanted) =
      .ok _ := rfl
  have hgrants := grants_iff_of_validateFields (show customers.fields = _ from rfl)
    (show ordersWanted.get? "fields" = some (.single "orders.total, ID,orders") from rfl) hvalid
    (.column "id") (by decide) (by decide)
  refine ⟨_, rfl, rfl, hvalid, by decide, by decide, hgrants.1.2 ?_⟩
  rintro ⟨relation, field, hwhole, _⟩
  cases hwhole

/-- The plain name of a relation is narrowed by a column of the relation, and a name of which
nothing is left in canonical form is passed over. -/
theorem orders_narrowed :
    (∃ valid, validateFields customerFields ordersWanted (.initial {} .get ordersWanted) =
        .ok valid ∧
      FieldToken.column "orders" ∈ (ParamValue.single "orders.total, ID,orders").fields ∧
      ¬ (selectedFields customers valid).Grants customerFields (.column "orders")) ∧
    ∃ valid, validateFields customerFields dashWanted (.initial {} .get dashWanted) = .ok valid ∧
      FieldToken.column "" ∈ (ParamValue.single "id,-").fields ∧
      ¬ (selectedFields customers valid).Grants customerFields (.column "") := by
  refine ⟨⟨_, rfl, by decide, ?_⟩, _, rfl, by decide, ?_⟩
  · intro hgrants
    cases hgrants with
    | column hselect => exact absurd hselect (by decide)
    | relation _ hget => exact absurd hget (by decide)
  · intro hgrants
    cases hgrants with
    | column hselect => exact absurd hselect (by decide)
    | relation _ hget => exact absurd hget (by decide)

end ParamQuery
