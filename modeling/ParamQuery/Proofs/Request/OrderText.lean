import ParamQuery.Proofs.CanonicalName
import ParamQuery.Proofs.Request.Ordering

/-!
# Orders as texts

The check of a request records an accepted order as a text, and the intent is built by reading this
text again. An order whose field is not empty and holds no point is read back from its text, and
putting a field into canonical form brings no point into it, so what is recorded is read back as the
order by the canonical field. The one thing that comes between is a filter key called like orders:
its value, as it was sent, is recorded over the canonical text.

## Main statements

* `Order.parse?_text` — an order is read back from its text.
* `Order.parse?_text_canonical` — so is an accepted order with its field in canonical form.
* `Endpoint.order_read_back` — from the request to the intent, an accepted order is never lost, and
  it changes its spelling only for a filter key of that name.
-/

namespace ParamQuery

namespace Order

/-- An order is read back from its text. -/
theorem parse?_text {o : Order} (hfield : o.field ≠ "") (hpoint : '.' ∉ o.field.toList) :
    parse? o.text = some o := by
  have hname : '.' ∉ o.direction.name.toList := by cases o.direction <;> decide
  exact parse?_eq_some_iff.2
    ⟨o.direction.name, rfl, hfield, hpoint, hname, Direction.parse?_name o.direction⟩

/-- Canonical form brings no point into the field of an order. -/
theorem point_notMem_canonical {text : String} {asked : Order} (h : parse? text = some asked) :
    '.' ∉ (canonical asked.field).toList := by
  obtain ⟨_, _, _, hpoint, _, _⟩ := parse?_eq_some_iff.1 h
  exact fun hmem => hpoint (mem_of_mem_canonical (by decide) hmem)

/-- An order by one of some named columns is read back from its text in canonical form. -/
theorem parse?_text_canonical {text : String} {asked : Order} {columns : List String}
    (h : parse? text = some asked) (hmem : canonical asked.field ∈ columns)
    (hcolumns : "" ∉ columns) :
    parse? (Order.text { asked with field := canonical asked.field }) =
      some { asked with field := canonical asked.field } := by
  refine parse?_text (fun hfield => ?_) (point_notMem_canonical h)
  exact hcolumns (hfield ▸ hmem)

end Order

/-- What the check of an order records is read back as the order that was sent, with its field in
canonical form. -/
theorem validateOrder_read_back {columns : List String} {sent : OrderedMap ParamValue}
    {valid valid' : ValidParams} {value : ParamValue} (hcolumns : "" ∉ columns)
    (hsent : sent.get? "order" = some value) (h : validateOrder columns sent valid = .ok valid') :
    ∃ text asked stored, value = .single text ∧ Order.parse? text = some asked ∧
      valid'.values.get? "order" = some stored ∧
      Order.parse? stored = some ⟨canonical asked.field, asked.direction⟩ := by
  obtain ⟨order, horder, hstored⟩ := validateOrder_records hsent h
  obtain ⟨text, asked, rfl, hasked, rfl, hmem⟩ := applicableOrder?_eq_some_iff.1 horder
  exact ⟨text, asked, _, rfl, hasked, hstored, Order.parse?_text_canonical hasked hmem hcolumns⟩

namespace Endpoint

variable {e : Endpoint} {method : Method} {params : Params} {intent : QueryIntent}
  {columns : List String} {value : ParamValue}

/-- The order of an intent is the one that was sent: in canonical form, or, for a filter key called
like orders, as it is spelled. -/
theorem order_of_compile_of_sends (hcolumns : e.schema.order = some columns) (hempty : "" ∉ columns)
    (h : e.compile method params = .ok intent) (hsends : params.Sends "order" value) :
    ∃ text asked, value = .single text ∧ Order.parse? text = some asked ∧
      intent.order = some (if "order" ∈ e.schema.filterKeys then asked
        else { asked with field := canonical asked.field }) := by
  obtain ⟨valid, _, order, hvalid, _, horder, rfl⟩ := compile_eq_ok_iff.1 h
  obtain ⟨text, asked, rfl, hasked, hmem, hrecorded⟩ :=
    recorded_order_of_sends hvalid hcolumns hsends
  refine ⟨text, asked, rfl, hasked, ?_⟩
  rw [requestedOrder, hcolumns, hrecorded] at horder
  have hread := Except.ok.inj horder
  split at hread
  · next hkey => rw [if_pos hkey, ← hasked, ← hread]
  · next hkey =>
    rw [if_neg hkey, ← Order.parse?_text_canonical hasked hmem hempty, ← hread]

/-- An order is read back from its text, and so is the canonical text of an accepted order. Where no
filter key is called like orders, an accepted order comes into the intent by its canonical field and
in its direction; where one is, it comes there as it is spelled. -/
theorem order_read_back (columns : List String) (hempty : "" ∉ columns) :
    (∀ o : Order, o.field ≠ "" → '.' ∉ o.field.toList → Order.parse? o.text = some o) ∧
    (∀ sent valid valid' value, sent.get? "order" = some value →
      validateOrder columns sent valid = .ok valid' →
      ∃ text asked stored, value = .single text ∧ Order.parse? text = some asked ∧
        valid'.values.get? "order" = some stored ∧
        Order.parse? stored = some ⟨canonical asked.field, asked.direction⟩) ∧
    ∀ (e : Endpoint) method params intent value, e.schema.order = some columns →
      e.compile method params = .ok intent → params.Sends "order" value →
      ∃ text asked, value = .single text ∧ Order.parse? text = some asked ∧
        intent.order = some (if "order" ∈ e.schema.filterKeys then asked
          else { asked with field := canonical asked.field }) :=
  ⟨fun _ => Order.parse?_text,
    fun _ _ _ _ hsent h => validateOrder_read_back hempty hsent h,
    fun _ _ _ _ _ hcolumns h hsends => order_of_compile_of_sends hcolumns hempty h hsends⟩

/-- An endpoint with orders by time of creation. -/
def byCreation : Endpoint := ⟨{}, { order := some ["created_at"] }⟩

/-- The same endpoint with a filter key called like orders. -/
def filtersByCreation : Endpoint :=
  ⟨{}, { order := some ["created_at"], filter := some ["order"] }⟩

/-- An order by time of creation, in camel case. -/
def newestFirst : Params := .ofList [("order", .single "createdAt.DESC")]

theorem order_read_back_newestFirst :
    "" ∉ ["created_at"] ∧
      byCreation.compile .get newestFirst =
        .ok { order := some ⟨"created_at", .desc⟩, pagination := ⟨20, 0⟩ } ∧
      ∃ text asked, ParamValue.single "createdAt.DESC" = .single text ∧
        Order.parse? text = some asked ∧
        some ⟨"created_at", .desc⟩ = some (if "order" ∈ byCreation.schema.filterKeys then asked
          else { asked with field := canonical asked.field }) := by
  have hempty : "" ∉ ["created_at"] := by decide
  have hcompile : byCreation.compile .get newestFirst =
      .ok { order := some ⟨"created_at", .desc⟩, pagination := ⟨20, 0⟩ } := rfl
  have hsends : newestFirst.Sends "order" (.single "createdAt.DESC") :=
    ⟨"order", rfl, by decide, by decide⟩
  exact ⟨hempty, hcompile,
    (order_read_back ["created_at"] hempty).2.2 byCreation .get newestFirst _ _ rfl hcompile hsends⟩

/-- An accepted order may come into the intent by another field than its canonical one, which the
check of the order had recorded. -/
theorem order_respelled :
    create {} filtersByCreation.schema = .ok filtersByCreation ∧ "" ∉ ["created_at"] ∧
      (∃ valid, validateOrder ["created_at"]
          (OrderedMap.ofList [("order", .single "createdAt.DESC")])
          (.initial {} .get newestFirst) = .ok valid ∧
        valid.values.get? "order" = some "created_at.desc" ∧
        Order.parse? "created_at.desc" = some ⟨"created_at", .desc⟩) ∧
      ∃ intent, filtersByCreation.compile .get newestFirst = .ok intent ∧
        intent.order = some ⟨"createdAt", .desc⟩ :=
  ⟨rfl, by decide, ⟨_, rfl, rfl, by decide⟩, _, rfl, rfl⟩

end Endpoint

end ParamQuery
