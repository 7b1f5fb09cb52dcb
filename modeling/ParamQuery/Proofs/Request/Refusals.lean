import ParamQuery.Proofs.Request.Checks
import ParamQuery.Proofs.Request.Names

/-!
# Refusals

A request to an endpoint is refused for what was sent, never for the way the endpoint was declared:
what could go wrong with the declaration was ruled out when the endpoint was made.

## Main definitions

* `Error.IsRefusal` — the errors that a request can be refused with.
* `EndpointSchema.RefusesName`, `EndpointSchema.Refuses`, `EndpointSchema.RefusesRequest` — what a
  refused name, a refused value and a refused request are reported as.

## Main statements

* `refusesRequest_of_validate` — a refused request was refused for its method, a name or a value.
* `Endpoint.exists_build` — every request that passed its checks has an intent.
* `Endpoint.compiles_or_refuses` — a request compiles or is refused.
-/

namespace ParamQuery

/-- The errors that a request with a method can be refused with. -/
inductive Error.IsRefusal (method : Method) : Error → Prop where
  | unknownParameter (name : String) : IsRefusal method (.unknownParameter name)
  | invalidValue (param : String) (fault : ValueFault) :
    IsRefusal method (.invalidValue param fault)
  | fieldsNotApplicable : IsRefusal method .fieldsNotApplicable
  | orderNotApplicable : IsRefusal method .orderNotApplicable
  | methodNotAllowed (c : Capability) : IsRefusal method (.methodNotAllowed c method)

theorem Error.IsRefusal.status {method : Method} {e : Error} (h : e.IsRefusal method) :
    e.status = 422 ∨ e.status = 405 := by
  cases h with
  | unknownParameter _ => exact .inl rfl
  | invalidValue _ _ => exact .inl rfl
  | fieldsNotApplicable => exact .inl rfl
  | orderNotApplicable => exact .inl rfl
  | methodNotAllowed _ => exact .inr rfl

namespace EndpointSchema

/-- What a name that was sent is refused as: it is not declared, or another spelling of it was sent
too. -/
inductive RefusesName (schema : EndpointSchema) (names : List String) : Error → Prop where
  | undeclared {name : String} : name ∈ names → isSuppression name = false →
    schema.declares (canonical name) = false → RefusesName schema names (.unknownParameter name)
  | repeated {name other : String} : name ∈ names → isSuppression name = false → other ∈ names →
    other ≠ name → canonical other = canonical name →
    RefusesName schema names (.invalidValue name .duplicate)

/-- What the values of a feature are refused as. -/
def Refuses (schema : EndpointSchema) (method : Method) (e : Error) : Capability → Prop
  | .pagination => ∃ fault, e = .invalidValue "limit" fault ∨ e = .invalidValue "offset" fault
  | .search => e = .invalidValue "q" .notSingle
  | .fields => e = .fieldsNotApplicable ∨ e = .methodNotAllowed .relations method
  | .order => e = .orderNotApplicable
  | .filter => ∃ key ∈ schema.filterKeys, ∃ fault, e = .invalidValue key fault
  | .body => ∃ key ∈ schema.bodyColumns, ∃ fault, e = .invalidValue key fault
  | .relations => False

/-- What a request is refused as: a declared feature that its method does not suit, one of its
names, or the value of a parameter of a declared feature. -/
inductive RefusesRequest (schema : EndpointSchema) (method : Method) (params : Params) :
    Error → Prop where
  | method {c : Capability} : c ∈ schema.declared → c.allows method = false →
    RefusesRequest schema method params (.methodNotAllowed c method)
  | name {e : Error} : schema.RefusesName params.keys e → RefusesRequest schema method params e
  | value {e : Error} {c : Capability} : c ∈ schema.declared → schema.Refuses method e c →
    RefusesRequest schema method params e

theorem RefusesName.isRefusal {schema : EndpointSchema} {names : List String} {e : Error}
    (h : schema.RefusesName names e) (method : Method) : e.IsRefusal method := by
  cases h with
  | undeclared _ _ _ => exact .unknownParameter _
  | repeated _ _ _ _ _ => exact .invalidValue _ _

theorem Refuses.isRefusal {schema : EndpointSchema} {method : Method} {e : Error} {c : Capability}
    (h : schema.Refuses method e c) : e.IsRefusal method := by
  cases c with
  | pagination =>
    obtain ⟨_, rfl | rfl⟩ := h
    · exact .invalidValue _ _
    · exact .invalidValue _ _
  | search =>
    obtain rfl := h
    exact .invalidValue _ _
  | fields =>
    obtain rfl | rfl := h
    · exact .fieldsNotApplicable
    · exact .methodNotAllowed _
  | order =>
    obtain rfl := h
    exact .orderNotApplicable
  | filter =>
    obtain ⟨_, _, _, rfl⟩ := h
    exact .invalidValue _ _
  | body =>
    obtain ⟨_, _, _, rfl⟩ := h
    exact .invalidValue _ _
  | relations => exact h.elim

/-- Whatever a request is refused for, it is refused with one of the errors for that. -/
theorem RefusesRequest.isRefusal {schema : EndpointSchema} {method : Method} {params : Params}
    {e : Error} (h : schema.RefusesRequest method params e) : e.IsRefusal method := by
  cases h with
  | method _ _ => exact .methodNotAllowed _
  | name h => exact h.isRefusal method
  | value _ h => exact h.isRefusal

end EndpointSchema

variable {config : Config} {schema : EndpointSchema} {method : Method} {params : Params}
  {sent : OrderedMap ParamValue} {valid : ValidParams} {e : Error}

/-! ## The method and the names -/

theorem checkMethod_eq_error (h : checkMethod schema method = .error e) :
    ∃ c ∈ schema.declared, c.allows method = false ∧ e = .methodNotAllowed c method := by
  unfold checkMethod at h
  split at h
  · next c hfind =>
    cases h
    exact ⟨c, List.mem_of_find?_eq_some hfind, by simpa using List.find?_some hfind, rfl⟩
  · cases h

/-- Names are refused one by one: those before the refused one were read. -/
theorem refusesName_of_addCanonical {entries : List (String × ParamValue)} (read : List String)
    (hread : ∀ key, sent.contains key = true → ∃ name ∈ read, canonical name = key)
    (hnodup : (read ++ Assoc.keys entries).Nodup)
    (h : addCanonical schema sent entries = .error e) :
    schema.RefusesName (read ++ Assoc.keys entries) e := by
  -- over the names still to be read; what was recorded so far was sent under a name before them
  induction entries generalizing sent read with
  | nil => cases h
  | cons entry rest ih =>
    obtain ⟨name, value⟩ := entry
    rw [Assoc.keys_cons, List.append_cons] at hnodup ⊢
    unfold addCanonical at h
    have hname : name ∈ read ++ [name] ++ Assoc.keys rest := by simp
    split at h
    · refine ih _ (fun key hkey => ?_) hnodup h
      obtain ⟨other, hother, hcanonical⟩ := hread key hkey
      exact ⟨other, List.mem_append_left _ hother, hcanonical⟩
    · next hsuppression =>
      rw [Bool.not_eq_true] at hsuppression
      split at h
      · next hdeclares =>
        cases h
        exact .undeclared hname hsuppression (by simpa using hdeclares)
      · split at h
        · next hcontains =>
          cases h
          obtain ⟨other, hother, hcanonical⟩ := hread _ hcontains
          refine .repeated hname hsuppression (by simp [hother]) ?_ hcanonical
          rintro rfl
          -- one spelling is not sent twice, so the other name is spelled differently
          have hnodup := hnodup.sublist (List.sublist_append_left _ _)
          exact List.disjoint_of_nodup_append hnodup hother (List.mem_singleton_self other)
        · refine ih _ (fun key hkey => ?_) hnodup h
          rw [OrderedMap.contains_insert, Bool.or_eq_true, beq_iff_eq] at hkey
          rcases hkey with rfl | hkey
          · exact ⟨name, by simp, rfl⟩
          · obtain ⟨other, hother, hcanonical⟩ := hread key hkey
            exact ⟨other, List.mem_append_left _ hother, hcanonical⟩

theorem refusesName_of_canonicalParams (h : canonicalParams schema params = .error e) :
    schema.RefusesName params.keys e :=
  refusesName_of_addCanonical [] (fun key hkey => by simp [OrderedMap.contains] at hkey)
    params.nodup h

/-! ## The values -/

theorem singleText_eq_error {param : String} {value : ParamValue}
    (h : singleText param value = .error e) : e = .invalidValue param .notSingle := by
  unfold singleText at h
  split at h
  · cases h
  · exact (Except.error.inj h).symm

theorem validateKeys_eq_error {keys : List String}
    (h : validateKeys schema sent keys valid = .error e) :
    ∃ key ∈ keys, ∃ fault, e = .invalidValue key fault := by
  induction keys generalizing valid with
  | nil => cases h
  | cons key rest ih =>
    have hlater {valid : ValidParams} (h : validateKeys schema sent rest valid = .error e) :
        ∃ key' ∈ key :: rest, ∃ fault, e = .invalidValue key' fault := by
      obtain ⟨key', hkey', hfault⟩ := ih h
      exact ⟨key', List.mem_cons_of_mem key hkey', hfault⟩
    rw [validateKeys] at h
    split at h
    · rcases bind_eq_error_iff.1 h with h | ⟨text, _, h⟩
      · exact ⟨key, List.mem_cons_self, _, singleText_eq_error h⟩
      · split at h
        · exact ⟨key, List.mem_cons_self, _, (Except.error.inj h).symm⟩
        · exact hlater h
    · split at h
      · exact ⟨key, List.mem_cons_self, _, (Except.error.inj h).symm⟩
      · exact hlater h

theorem validatePagination_eq_error (h : validatePagination config sent valid = .error e) :
    (∃ value, readLimit config value = .error e) ∨
      ∃ value, readCount "offset" value = .error e := by
  unfold validatePagination at h
  split at h <;> split at h <;>
    simp only [bind_eq_error_iff, pure_ne_error, and_false, exists_const, or_false, false_or] at h
  · exact h.imp (fun h => ⟨_, h⟩) fun ⟨_, _, h⟩ => ⟨_, h⟩
  · obtain ⟨_, _, h⟩ := h
    exact .inr ⟨_, h⟩
  · exact .inl ⟨_, h⟩

theorem validateSearch_eq_error (h : validateSearch sent valid = .error e) :
    e = .invalidValue "q" .notSingle := by
  unfold validateSearch at h
  split at h <;> rcases bind_eq_error_iff.1 h with h | ⟨q, _, h⟩
  · exact singleText_eq_error h
  · cases h
  · cases h
  · cases h

/-- The values of a feature are refused under the names of its parameters. -/
theorem refuses_of_validateCapability {c : Capability}
    (h : validateCapability config schema sent valid c = .error e) :
    schema.Refuses valid.method e c := by
  cases c with
  | pagination =>
    rcases validatePagination_eq_error h with ⟨_, h⟩ | ⟨_, h⟩
    · obtain ⟨fault, _, rfl⟩ := readLimit_eq_error_iff.1 h
      exact ⟨fault, .inl rfl⟩
    · obtain ⟨fault, _, rfl⟩ := readCount_eq_error_iff.1 h
      exact ⟨fault, .inr rfl⟩
  | search => exact validateSearch_eq_error h
  | fields =>
    simp only [validateCapability, validateFields] at h
    split at h
    · cases h
    · split at h
      · exact .inl (Except.error.inj h).symm
      · split at h
        · exact .inr (Except.error.inj h).symm
        · cases h
  | order =>
    simp only [validateCapability, validateOrder] at h
    split at h
    · cases h
    · split at h
      · cases h
      · exact (Except.error.inj h).symm
  | filter => exact validateKeys_eq_error h
  | body => exact validateKeys_eq_error h
  | relations => cases h

/-- A request that does not pass was refused for its method, for a name, or for the values of a
feature. -/
theorem refusesRequest_of_validate (h : validate config schema method params = .error e) :
    schema.RefusesRequest method params e := by
  rcases bind_eq_error_iff.1 h with h | ⟨_, _, h⟩
  · obtain ⟨c, hc, hmethod, rfl⟩ := checkMethod_eq_error h
    exact .method hc hmethod
  · rcases bind_eq_error_iff.1 h with h | ⟨sent, _, h⟩
    · exact .name (refusesName_of_canonicalParams h)
    · obtain ⟨c, hc, valid, hmethod, hstep⟩ :=
        exists_of_foldlM_eq_error (P := fun valid => valid.method = method)
          (fun c _ valid valid' hmethod hstep =>
            (method_of_validateCapability hstep).trans hmethod) rfl h
      exact .value hc (hmethod ▸ refuses_of_validateCapability hstep)

/-! ## What was ruled out before -/

theorem checkFilterKeys_eq_ok_iff {keys : List String} :
    EndpointSchema.checkFilterKeys keys = .ok () ↔
      ∀ key ∈ keys, ∃ parsed, FilterKey.parse key = .ok parsed := by
  induction keys with
  | nil => simp [EndpointSchema.checkFilterKeys]
  | cons key rest ih =>
    rw [EndpointSchema.checkFilterKeys, List.forall_mem_cons]
    cases hkey : FilterKey.parse key with
    | ok parsed => simp [ih]
    | error fault => simp

theorem exists_addConditions {names : List String} (filter : FilterSet)
    (hnames : ∀ name ∈ names, ∃ parsed, FilterKey.parse name = .ok parsed) :
    ∃ filter', addConditions valid names filter = .ok filter' := by
  induction names generalizing filter with
  | nil => exact ⟨filter, rfl⟩
  | cons name rest ih =>
    rw [List.forall_mem_cons] at hnames
    obtain ⟨⟨parsed, hparsed⟩, hrest⟩ := hnames
    rw [addConditions]
    split
    · exact ih _ hrest
    · rw [hparsed]
      exact ih _ hrest

theorem exists_parse_of_check (h : schema.check = .ok ()) :
    ∀ key ∈ schema.filterKeys, ∃ parsed, FilterKey.parse key = .ok parsed := by
  unfold EndpointSchema.check at h
  split at h
  · cases h
  · obtain ⟨_, hkeys, _⟩ := bind_eq_ok_iff.1 h
    exact checkFilterKeys_eq_ok_iff.1 hkeys

namespace Endpoint

/-- An endpoint that was made reads all its filter keys, and its default order if it has orders. -/
theorem readable_of_create {endpoint : Endpoint} (h : create config schema = .ok endpoint) :
    endpoint = ⟨config, schema⟩ ∧
      (∀ key ∈ schema.filterKeys, ∃ parsed, FilterKey.parse key = .ok parsed) ∧
      (schema.order.isSome = true → ∃ order, config.order = .ok order) := by
  obtain ⟨_, _, h⟩ := bind_eq_ok_iff.1 h
  obtain ⟨_, hcheck, h⟩ := bind_eq_ok_iff.1 h
  have hkeys := exists_parse_of_check hcheck
  split at h
  · obtain ⟨order, horder, h⟩ := bind_eq_ok_iff.1 h
    exact ⟨(Except.ok.inj h).symm, hkeys, fun _ => ⟨order, horder⟩⟩
  · next hnone => exact ⟨(Except.ok.inj h).symm, hkeys, fun hsome => absurd hsome hnone⟩

/-- Whatever was recorded for a request, an endpoint that was made has an intent for it. -/
theorem exists_build {endpoint : Endpoint} (h : create config schema = .ok endpoint)
    (valid : ValidParams) :
    ∃ intent, QueryIntent.build endpoint.config endpoint.schema valid = .ok intent := by
  obtain ⟨rfl, hkeys, horder⟩ := readable_of_create h
  obtain ⟨filter, hfilter⟩ : ∃ filter, addConditions valid schema.filterKeys {} = .ok filter :=
    exists_addConditions {} hkeys
  have hrequested : ∃ order, requestedOrder config schema valid = .ok order := by
    unfold requestedOrder
    split
    · exact ⟨none, rfl⟩
    · next hsome =>
      split
      · exact ⟨_, rfl⟩
      · obtain ⟨order, horder⟩ := horder (by simpa [Option.isSome_iff_ne_none] using hsome)
        exact ⟨some order, by rw [horder]; rfl⟩
  obtain ⟨order, horder⟩ := hrequested
  refine ⟨_, bind_eq_ok_iff.2 ⟨filter, hfilter, bind_eq_ok_iff.2 ⟨order, horder, rfl⟩⟩⟩

/-- A request to an endpoint that was made compiles, or it is refused for its method, a name or a
value, with one of the errors for that and their status. -/
theorem compiles_or_refuses {endpoint : Endpoint} (h : create config schema = .ok endpoint)
    (method : Method) (params : Params) :
    (∃ intent, endpoint.compile method params = .ok intent) ∨
      ∃ e, endpoint.compile method params = .error e ∧ e.IsRefusal method ∧
        (e.status = 422 ∨ e.status = 405) ∧ endpoint.schema.RefusesRequest method params e := by
  cases hcompile : endpoint.compile method params with
  | ok intent => exact .inl ⟨intent, rfl⟩
  | error e =>
    have hrefuses : endpoint.schema.RefusesRequest method params e := by
      rcases bind_eq_error_iff.1 hcompile with hvalidate | ⟨valid, _, hbuild⟩
      · exact refusesRequest_of_validate hvalidate
      · obtain ⟨intent, hintent⟩ := exists_build h valid
        rw [hintent] at hbuild
        cases hbuild
    exact .inr ⟨e, rfl, hrefuses.isRefusal, hrefuses.isRefusal.status, hrefuses⟩

/-- An endpoint with orders by one column and a filter key. -/
def ordered : Endpoint := ⟨{}, { order := some ["id"], filter := some ["name_gt"] }⟩

/-- A request that asks for another order. -/
def otherOrder : Params := .ofList [("nameGt", .single "m"), ("order", .single "name.asc")]

theorem refuses_order :
    create {} ordered.schema = .ok ordered ∧
      ∃ e, ordered.compile .get otherOrder = .error e ∧ e.IsRefusal .get ∧
        (e.status = 422 ∨ e.status = 405) ∧ ordered.schema.RefusesRequest .get otherOrder e := by
  have hcreate : create {} ordered.schema = .ok ordered := rfl
  refine ⟨hcreate, (compiles_or_refuses hcreate .get otherOrder).resolve_left ?_⟩
  rintro ⟨intent, hintent⟩
  have hrefused : ordered.compile .get otherOrder = .error .orderNotApplicable := rfl
  rw [hrefused] at hintent
  cases hintent

end Endpoint

end ParamQuery
