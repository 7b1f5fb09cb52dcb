import ParamQuery.Proofs.Request.Recorded

/-!
# The order of a request

An order is accepted if its field is one of the declared columns, and it is compiled with the field
in canonical form. Two orders are not held against the declared columns: the configured one, which
stands where none is sent, and the text of an order whose name is that of a filter key too, which
replaces the canonical form that was recorded for the order.

## Main definitions

* `EndpointSchema.Orders` — where the order of a request comes from.

## Main statements

* `recorded_order_of_sends` — what is recorded for an order that was sent.
* `Endpoint.orders_of_compile` — every order that is compiled comes from one of these sources.
* `EndpointSchema.Orders.of_not_mem` — when its field is not a declared column.
-/

namespace ParamQuery

namespace Order

/-- Reading the text of an order gives nothing but that order. -/
theorem eq_of_parse?_text {o order : Order} (h : parse? o.text = some order) : order = o := by
  obtain ⟨direction, htext, _, hfield, hdirection, hparse⟩ := parse?_eq_some_iff.1 h
  have hname : '.' ∉ o.direction.name.toList := by cases o.direction <;> decide
  have hpoint : (".").toList = ['.'] := rfl
  rw [text, ← String.toList_inj] at htext
  simp only [String.toList_append, hpoint, List.append_assoc, List.singleton_append] at htext
  -- the one point of the text ends both fields
  obtain ⟨hfields, hdirections⟩ : o.field.toList = order.field.toList ∧
      o.direction.name.toList = direction.toList := by
    rcases List.append_eq_append_iff.1 htext with ⟨rest, hrest, hpoints⟩ | ⟨rest, hrest, hpoints⟩
    · cases rest with
      | nil => simpa [hrest] using hpoints
      | cons c rest =>
        rw [List.cons_append, List.cons.injEq] at hpoints
        exact absurd (by simp [hpoints.2]) hname
    · cases rest with
      | nil => simpa [hrest, eq_comm] using hpoints
      | cons c rest =>
        rw [List.cons_append, List.cons.injEq] at hpoints
        exact absurd (by simp [hpoints.2]) hdirection
  rw [← String.toList_inj.1 hdirections, Direction.parse?_name, Option.some.injEq] at hparse
  cases o
  cases order
  simp_all [String.toList_inj]

end Order

namespace EndpointSchema

/-- Where the order of a request comes from. -/
inductive Orders (schema : EndpointSchema) (config : Config) (params : Params)
    (columns : List String) : Order → Prop where
  /-- It was sent, for one of the columns. -/
  | sent {text : String} {asked : Order} : params.Sends "order" (.single text) →
    Order.parse? text = some asked → canonical asked.field ∈ columns →
    "order" ∉ schema.filterKeys →
    Orders schema config params columns { asked with field := canonical asked.field }
  /-- It was sent, for one of the columns, and keeps its spelling because it is the value of a
  filter key too. -/
  | spelled {text : String} {asked : Order} : params.Sends "order" (.single text) →
    Order.parse? text = some asked → canonical asked.field ∈ columns →
    "order" ∈ schema.filterKeys → Orders schema config params columns asked
  /-- None was sent, and it is the configured one. -/
  | configured {order : Order} : (∀ value, ¬ params.Sends "order" value) →
    config.order = .ok order → Orders schema config params columns order

/-- The configured order may be by any column. One that was sent is by one of the columns, which may
be spelled in another way if a filter key is called like orders. -/
theorem Orders.of_not_mem {schema : EndpointSchema} {config : Config} {params : Params}
    {columns : List String} {order : Order} (h : schema.Orders config params columns order)
    (houtside : order.field ∉ columns) :
    config.order = .ok order ∨ "order" ∈ schema.filterKeys ∧ canonical order.field ∈ columns := by
  cases h with
  | sent _ _ hmem _ => exact absurd hmem houtside
  | spelled _ _ hmem hkey => exact .inr ⟨hkey, hmem⟩
  | configured _ hconfig => exact .inl hconfig

end EndpointSchema

variable {config : Config} {schema : EndpointSchema} {method : Method} {params : Params}
  {sent : OrderedMap ParamValue} {valid valid' : ValidParams} {columns : List String}

/-- Orders and columns to write are not declared for one method. -/
theorem bodyColumns_eq_nil_of_order (horder : .order ∈ schema.declared)
    (hsuits : ∀ c ∈ schema.declared, c.allows method = true) : schema.bodyColumns = [] := by
  have hbody : .body ∉ schema.declared := fun hbody =>
    absurd (allows_write_of_body hbody hsuits horder) (by decide)
  cases hcolumns : schema.body with
  | none => simp [EndpointSchema.bodyColumns, hcolumns]
  | some columns => exact absurd (by simp [EndpointSchema.declared, hcolumns]) hbody

/-- Nothing but the check of the order and a filter key of its name records an order. -/
theorem not_mem_writes_order (hkeys : "order" ∉ schema.filterKeys) (hbody : schema.bodyColumns = [])
    {c : Capability} (hc : c ≠ .order) : "order" ∉ schema.writes c := by
  cases c with
  | order => exact absurd rfl hc
  | filter => exact hkeys
  | body => simp [EndpointSchema.writes, hbody]
  | pagination | search | fields | relations => simp [EndpointSchema.writes]

/-- The check of an order that was sent records it if it is applicable. -/
theorem validateOrder_records {value : ParamValue} (hread : sent.get? "order" = some value)
    (h : validateOrder columns sent valid = .ok valid') :
    ∃ order, applicableOrder? columns value = some order ∧
      valid'.values.get? "order" = some order.text := by
  obtain ⟨hnone, _⟩ | ⟨_, order, hsome, horder, rfl⟩ := validateOrder_eq_ok_iff.1 h
  · rw [hread] at hnone
    cases hnone
  · obtain rfl := Option.some.inj (hread.symm.trans hsome)
    exact ⟨order, horder, by rw [OrderedMap.get?_insert, if_pos rfl]⟩

/-- An order that was sent is for one of the declared columns. It is recorded in canonical form,
or, for a filter key of that name, as it was sent. -/
theorem recorded_order_of_sends (h : validate config schema method params = .ok valid)
    (hcolumns : schema.order = some columns) {value : ParamValue}
    (hvalue : params.Sends "order" value) :
    ∃ text asked, value = .single text ∧ Order.parse? text = some asked ∧
      canonical asked.field ∈ columns ∧
      valid.values.get? "order" = some (if "order" ∈ schema.filterKeys then text
        else Order.text { asked with field := canonical asked.field }) := by
  obtain ⟨hsuits, sent, hsent, hrun⟩ := validate_eq_ok_iff.1 h
  have hread : sent.get? "order" = some value :=
    (Params.get?_iff_sends (canonicalParams_eq_ok_iff.1 hsent).2.2).2 hvalue
  have hdeclared : .order ∈ schema.declared := by simp [EndpointSchema.declared, hcolumns]
  have hrecords (valid valid' : ValidParams)
      (h : validateCapability config schema sent valid .order = .ok valid') :
      ∃ order, applicableOrder? columns value = some order ∧
        valid'.values.get? "order" = some order.text := by
    rw [validateCapability, hcolumns, Option.getD_some] at h
    exact validateOrder_records hread h
  by_cases hkeys : "order" ∈ schema.filterKeys
  · obtain ⟨order, horder⟩ : ∃ order, applicableOrder? columns value = some order :=
      foldlM_reaches (P := fun _ => ∃ order, applicableOrder? columns value = some order) hdeclared
        (fun valid valid' h => (hrecords valid valid' h).imp fun _ => And.left)
        (fun _ _ _ _ h _ => h) hrun
    obtain ⟨text, asked, rfl, hasked, rfl, hmem⟩ := applicableOrder?_eq_some_iff.1 horder
    obtain ⟨text', htext, _, hrecorded⟩ := recorded_of_sends h (.inl hkeys) hvalue
    obtain rfl : text = text' := ParamValue.single.inj htext
    exact ⟨text, asked, rfl, hasked, hmem, by rw [if_pos hkeys, hrecorded]⟩
  · -- nothing that is checked after the order writes over it
    have hbody := bodyColumns_eq_nil_of_order hdeclared hsuits
    obtain ⟨order, horder, hrecorded⟩ : ∃ order, applicableOrder? columns value = some order ∧
        valid.values.get? "order" = some order.text := by
      refine foldlM_reaches
        (P := fun valid => ∃ order, applicableOrder? columns value = some order ∧
          valid.values.get? "order" = some order.text) hdeclared hrecords ?_ hrun
      rintro c _ valid valid' ⟨order, horder, hvalid⟩ hstep
      by_cases hc : c = .order
      · exact hrecords valid valid' (hc ▸ hstep)
      · exact ⟨order, horder,
          (get?_of_validateCapability (not_mem_writes_order hkeys hbody hc) hstep).trans hvalid⟩
    obtain ⟨text, asked, rfl, hasked, rfl, hmem⟩ := applicableOrder?_eq_some_iff.1 horder
    exact ⟨text, asked, rfl, hasked, hmem, by rw [if_neg hkeys, hrecorded]⟩

/-- No order is recorded if none was sent. -/
theorem recorded_order_of_not_sends (h : validate config schema method params = .ok valid)
    (hunsent : ∀ value, ¬ params.Sends "order" value) : valid.values.get? "order" = none := by
  obtain ⟨_, sent, hsent, hrun⟩ := validate_eq_ok_iff.1 h
  have hread : sent.get? "order" = none :=
    (Params.get?_eq_none_iff (canonicalParams_eq_ok_iff.1 hsent).2.2).2 hunsent
  have hstanding : valid.Standing config schema "order" :=
    foldlM_preserves (fun _ hc _ _ => .validateCapability hread hc) .initial hrun
  have hnone : schema.standing? config "order" = none := by simp [EndpointSchema.standing?]
  refine Option.eq_none_iff_forall_ne_some.2 fun text htext => ?_
  rw [hstanding.value text htext] at hnone
  cases hnone

namespace Endpoint

variable {e : Endpoint} {intent : QueryIntent} {order : Order}

/-- The order of a compiled request is the one that was sent, by a declared column, or else the
configured one. A field that is not a declared column is that of the configured order, or it is the
spelling of a column, sent where a filter key is called like orders. -/
theorem orders_of_compile (h : e.compile method params = .ok intent)
    (horder : intent.order = some order) :
    ∃ columns, e.schema.order = some columns ∧ e.schema.Orders e.config params columns order ∧
      (order.field ∉ columns → e.config.order = .ok order ∨
        "order" ∈ e.schema.filterKeys ∧ canonical order.field ∈ columns) := by
  obtain ⟨valid, _, requested, hvalid, _, hrequested, rfl⟩ := compile_eq_ok_iff.1 h
  obtain rfl : requested = some order := horder
  cases hcolumns : e.schema.order with
  | none =>
    rw [requestedOrder, hcolumns] at hrequested
    cases hrequested
  | some columns =>
    rw [requestedOrder, hcolumns] at hrequested
    have horders : e.schema.Orders e.config params columns order := by
      by_cases hsends : ∃ value, params.Sends "order" value
      · obtain ⟨value, hvalue⟩ := hsends
        obtain ⟨text, asked, rfl, hasked, hmem, hrecorded⟩ :=
          recorded_order_of_sends hvalid hcolumns hvalue
        rw [hrecorded] at hrequested
        have hparse := Except.ok.inj hrequested
        split at hparse
        · next hkey =>
          obtain rfl := Option.some.inj (hasked.symm.trans hparse)
          exact .spelled hvalue hasked hmem hkey
        · next hkeys =>
          obtain rfl := Order.eq_of_parse?_text hparse
          exact .sent hvalue hasked hmem hkeys
      · rw [not_exists] at hsends
        rw [recorded_order_of_not_sends hvalid hsends] at hrequested
        cases hconfig : e.config.order with
        | error err =>
          rw [hconfig] at hrequested
          cases hrequested
        | ok configured =>
          rw [hconfig] at hrequested
          cases hrequested
          exact .configured hsends hconfig
    exact ⟨columns, rfl, horders, horders.of_not_mem⟩

/-- An endpoint with orders by one column, which is not that of the configured order. -/
def byName : Endpoint := ⟨{}, { order := some ["name"] }⟩

/-- An endpoint with orders by two columns and a filter key called like orders. -/
def filtersOrder : Endpoint := ⟨{}, { order := some ["id", "name"], filter := some ["order"] }⟩

/-- An order by a declared column in another spelling. -/
def capitalOrder : Params := .ofList [("order", .single "NAME.asc")]

/-- The intent of a request for that order. -/
def capitalIntent : QueryIntent where
  filter := { base := FilterBuckets.insert {} .eq "order" "NAME.asc" }
  order := some ⟨"NAME", .asc⟩
  pagination := ⟨20, 0⟩

theorem orders_of_capitalOrder :
    filtersOrder.compile .get capitalOrder = .ok capitalIntent ∧
      capitalIntent.order = some ⟨"NAME", .asc⟩ ∧
      ∃ columns, filtersOrder.schema.order = some columns ∧
        filtersOrder.schema.Orders filtersOrder.config capitalOrder columns ⟨"NAME", .asc⟩ ∧
        ("NAME" ∉ columns → filtersOrder.config.order = .ok ⟨"NAME", .asc⟩ ∨
          "order" ∈ filtersOrder.schema.filterKeys ∧ canonical "NAME" ∈ columns) := by
  have hcompile : filtersOrder.compile .get capitalOrder = .ok capitalIntent := rfl
  exact ⟨hcompile, rfl, orders_of_compile hcompile rfl⟩

/-- A compiled order may be by a column that is not declared: the configured order, and the
spelling that was sent for a filter key. -/
theorem order_outside_columns :
    (create {} byName.schema = .ok byName ∧
      byName.compile .get ∅ = .ok { order := some ⟨"id", .asc⟩, pagination := ⟨20, 0⟩ } ∧
      byName.schema.order = some ["name"] ∧ "id" ∉ ["name"]) ∧
    create {} filtersOrder.schema = .ok filtersOrder ∧
      filtersOrder.compile .get capitalOrder = .ok capitalIntent ∧
      capitalIntent.order = some ⟨"NAME", .asc⟩ ∧
      filtersOrder.schema.order = some ["id", "name"] ∧ "NAME" ∉ ["id", "name"] :=
  ⟨⟨rfl, rfl, rfl, by decide⟩, rfl, rfl, rfl, rfl, by decide⟩

end Endpoint

end ParamQuery
