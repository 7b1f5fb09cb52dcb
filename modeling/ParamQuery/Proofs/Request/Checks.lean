import ParamQuery.Endpoint
import ParamQuery.Proofs.Request.Values

/-!
# The checks of a request

What each check of a request asks for and what it records, one statement for each.

## Main definitions

* `EndpointSchema.writes` — the names that the check of a feature records values for.

## Main statements

* `checkMethod_eq_ok_iff`, `allows_write_of_body` — when a method suits an endpoint.
* `validatePagination_eq_ok_iff`, `validateSearch_eq_ok_iff`, `validateFields_eq_ok_iff`,
  `validateOrder_eq_ok_iff`, `validateKeys_cons_eq_ok_iff` — the checks of the values.
* `exists_of_validateKeys`, `validateKeys_records` — what the check of keys writes.
* `method_of_validateCapability`, `get?_of_validateCapability` — no check of a value changes the
  method, or what is recorded for the parameters of another feature.
* `validate_eq_ok_iff`, `Endpoint.compile_eq_ok_iff` — the stages of a request that passes and of
  one that compiles.
-/

namespace ParamQuery

theorem checkMethod_eq_ok_iff {schema : EndpointSchema} {method : Method} :
    checkMethod schema method = .ok () ↔ ∀ c ∈ schema.declared, c.allows method = true := by
  unfold checkMethod
  split
  · next c hfind =>
    have hmem := List.mem_of_find?_eq_some hfind
    have hrefused : c.allows method = false := by simpa using List.find?_some hfind
    constructor
    · rintro ⟨⟩
    · intro h
      rw [h c hmem] at hrefused
      cases hrefused
  · next hfind => simpa using hfind

/-- Where columns are written, all features suit a method that writes. -/
theorem allows_write_of_body {schema : EndpointSchema} {method : Method}
    (hbody : .body ∈ schema.declared) (hsuits : ∀ c ∈ schema.declared, c.allows method = true)
    {c : Capability} (hc : c ∈ schema.declared) : c.allows .put = true ∨ c.allows .post = true := by
  have hmethod := hsuits .body hbody
  have hc := hsuits c hc
  cases method with
  | get => exact absurd hmethod (by decide)
  | put => exact .inl hc
  | post => exact .inr hc
  | delete => exact absurd hmethod (by decide)

section

variable {config : Config} {schema : EndpointSchema} {sent : OrderedMap ParamValue}
  {valid valid' : ValidParams}

/-- The page is what was sent, or as recorded before, and it is recorded in either case. -/
theorem validatePagination_eq_ok_iff :
    validatePagination config sent valid = .ok valid' ↔
      ∃ limit offset,
        (∀ value, sent.get? "limit" = some value → value.IsCount limit ∧ 1 ≤ limit ∧
          ∀ max, config.maxLimit = some max → limit ≤ max) ∧
        (sent.get? "limit" = none → limit = valid.limit) ∧
        (∀ value, sent.get? "offset" = some value → value.IsCount offset) ∧
        (sent.get? "offset" = none → offset = valid.offset) ∧
        { valid with
          limit := limit
          offset := offset
          values := (valid.values.insert "limit" (toString limit)).insert "offset"
            (toString offset) } = valid' := by
  unfold validatePagination
  constructor
  · intro h
    split at h <;> split at h <;>
      simp only [bind_eq_ok_iff, pure_eq_ok_iff, readLimit_eq_ok_iff, readCount_eq_ok_iff] at h <;>
      obtain ⟨limit, hlimit, offset, hoffset, rfl⟩ := h <;>
      refine ⟨limit, offset, ?_⟩ <;>
      simp_all
  · rintro ⟨limit, offset, hlimit, hlimit', hoffset, hoffset', rfl⟩
    split <;> split <;>
      simp only [bind_eq_ok_iff, pure_eq_ok_iff, readLimit_eq_ok_iff, readCount_eq_ok_iff] <;>
      refine ⟨limit, ?_, offset, ?_, rfl⟩ <;>
      simp_all

/-- The text to search for is what was sent, or empty, and it is recorded in either case. -/
theorem validateSearch_eq_ok_iff :
    validateSearch sent valid = .ok valid' ↔
      ∃ q, (∀ value, sent.get? "q" = some value → value = .single q) ∧
        (sent.get? "q" = none → q = "") ∧
        { valid with values := valid.values.insert "q" q } = valid' := by
  unfold validateSearch
  constructor
  · intro h
    split at h <;> simp only [bind_eq_ok_iff, pure_eq_ok_iff, singleText_eq_ok_iff] at h <;>
      obtain ⟨q, hq, rfl⟩ := h <;> refine ⟨q, ?_⟩ <;> simp_all
  · rintro ⟨q, hq, hq', rfl⟩
    split <;> simp only [bind_eq_ok_iff, pure_eq_ok_iff, singleText_eq_ok_iff] <;>
      refine ⟨q, ?_, rfl⟩ <;> simp_all

/-- The fields are recorded in canonical form if they were sent. -/
theorem validateFields_eq_ok_iff {allow : FieldAllowList} :
    validateFields allow sent valid = .ok valid' ↔
      (sent.get? "fields" = none ∧ valid = valid') ∨
      ∃ value, sent.get? "fields" = some value ∧
        allow.allows (.parse (canonicalFields value.joined)) = true ∧
        (FieldSelection.wantsRelation (.parse (canonicalFields value.joined)) allow &&
          !Capability.relations.allows valid.method) = false ∧
        { valid with
          values := valid.values.insert "fields" (canonicalFields value.joined) } = valid' := by
  unfold validateFields
  cases sent.get? "fields" with
  | none => simp
  | some value =>
    simp only [reduceCtorEq, false_and, Option.some.injEq, exists_eq_left', false_or]
    generalize canonicalFields value.joined = text
    split
    · next hallows =>
      rw [Bool.not_eq_true'] at hallows
      simp [hallows]
    · next hallows =>
      rw [Bool.not_eq_true', Bool.not_eq_false] at hallows
      split
      · next hwants => simp only [hwants, reduceCtorEq, Bool.true_eq_false, false_and, and_false]
      · next hwants =>
        rw [Bool.not_eq_true] at hwants
        simp only [hallows, hwants, Except.ok.injEq, true_and]

/-- The order is recorded in canonical form if it was sent. -/
theorem validateOrder_eq_ok_iff {columns : List String} :
    validateOrder columns sent valid = .ok valid' ↔
      (sent.get? "order" = none ∧ valid = valid') ∨
      ∃ value order, sent.get? "order" = some value ∧ applicableOrder? columns value = some order ∧
        { valid with values := valid.values.insert "order" order.text } = valid' := by
  unfold validateOrder
  cases sent.get? "order" with
  | none => simp
  | some value =>
    simp only [reduceCtorEq, false_and, Option.some.injEq, exists_and_left, exists_eq_left', false_or]
    cases applicableOrder? columns value with
    | none => simp
    | some order => simp

/-- Keys are checked one after the other, each against its rule, and recorded as they were sent. -/
theorem validateKeys_cons_eq_ok_iff {key : String} {rest : List String} :
    validateKeys schema sent (key :: rest) valid = .ok valid' ↔
      (∃ text, sent.get? key = some (.single text) ∧ (schema.rule key).Admits text ∧
        validateKeys schema sent rest { valid with values := valid.values.insert key text } =
          .ok valid') ∨
      (sent.get? key = none ∧ (schema.rule key).required = false ∧
        validateKeys schema sent rest valid = .ok valid') := by
  rw [validateKeys]
  cases sent.get? key with
  | none => cases (schema.rule key).required <;> simp [throw, throwThe, MonadExceptOf.throw]
  | some value =>
    simp only [bind_eq_ok_iff, singleText_eq_ok_iff, Option.some.injEq, reduceCtorEq, false_and,
      or_false, ← ValueRule.fault?_eq_none_iff]
    refine exists_congr fun text => and_congr_right fun _ => ?_
    cases (schema.rule key).fault? text with
    | none => simp
    | some fault => simp [throw, throwThe, MonadExceptOf.throw]

/-- Checking keys writes nothing but the values of those that were sent. -/
theorem exists_of_validateKeys {keys : List String}
    (h : validateKeys schema sent keys valid = .ok valid') :
    ∃ values, valid' = { valid with values := values } ∧
      ∀ name, name ∉ keys ∨ sent.get? name = none →
        values.get? name = valid.values.get? name := by
  induction keys generalizing valid with
  | nil =>
    cases h
    exact ⟨_, rfl, fun _ _ => rfl⟩
  | cons key rest ih =>
    obtain ⟨text, hkey, _, h⟩ | ⟨_, _, h⟩ := validateKeys_cons_eq_ok_iff.1 h
    · obtain ⟨values, rfl, hvalues⟩ := ih h
      refine ⟨values, rfl, fun name hname => ?_⟩
      have hne : key ≠ name := by
        rintro rfl
        rcases hname with hname | hname
        · exact hname List.mem_cons_self
        · rw [hkey] at hname
          cases hname
      rw [hvalues name (hname.imp_left (mt (List.mem_cons_of_mem key))), OrderedMap.get?_insert,
        if_neg hne]
    · obtain ⟨values, rfl, hvalues⟩ := ih h
      exact ⟨values, rfl, fun name hname =>
        hvalues name (hname.imp_left (mt (List.mem_cons_of_mem key)))⟩

/-- What was recorded as it was sent stays recorded. -/
theorem validateKeys_keeps {keys : List String} {name text : String}
    (hsent : sent.get? name = some (.single text)) (hvalid : valid.values.get? name = some text)
    (h : validateKeys schema sent keys valid = .ok valid') :
    valid'.values.get? name = some text := by
  induction keys generalizing valid with
  | nil =>
    cases h
    exact hvalid
  | cons key rest ih =>
    obtain ⟨text', hkey, _, h⟩ | ⟨_, _, h⟩ := validateKeys_cons_eq_ok_iff.1 h
    · refine ih ?_ h
      rw [OrderedMap.get?_insert]
      split
      · next hname =>
        subst hname
        rw [hsent, Option.some.injEq, ParamValue.single.injEq] at hkey
        rw [hkey]
      · exact hvalid
    · exact ih hvalid h

/-- A key that was sent is admitted by its rule and recorded as it was sent. -/
theorem validateKeys_records {keys : List String} {name : String} {value : ParamValue}
    (hname : name ∈ keys) (hsent : sent.get? name = some value)
    (h : validateKeys schema sent keys valid = .ok valid') :
    ∃ text, value = .single text ∧ (schema.rule name).Admits text ∧
      valid'.values.get? name = some text := by
  induction keys generalizing valid with
  | nil => cases hname
  | cons key rest ih =>
    obtain ⟨text, hkey, hadmits, h⟩ | ⟨hkey, _, h⟩ := validateKeys_cons_eq_ok_iff.1 h
    · rcases List.mem_cons.1 hname with rfl | hname
      · obtain rfl : ParamValue.single text = value := Option.some.inj (hkey.symm.trans hsent)
        refine ⟨text, rfl, hadmits, validateKeys_keeps hkey ?_ h⟩
        rw [OrderedMap.get?_insert, if_pos rfl]
      · exact ih hname h
    · rcases List.mem_cons.1 hname with rfl | hname
      · rw [hsent] at hkey
        cases hkey
      · exact ih hname h

/-- The checks of values do not change the method. -/
theorem method_of_validateCapability {c : Capability}
    (h : validateCapability config schema sent valid c = .ok valid') :
    valid'.method = valid.method := by
  cases c with
  | pagination =>
    obtain ⟨_, _, _, _, _, _, rfl⟩ := validatePagination_eq_ok_iff.1 h
    rfl
  | search =>
    obtain ⟨_, _, _, rfl⟩ := validateSearch_eq_ok_iff.1 h
    rfl
  | fields =>
    obtain ⟨_, rfl⟩ | ⟨_, _, _, _, rfl⟩ := validateFields_eq_ok_iff.1 h <;> rfl
  | order =>
    obtain ⟨_, rfl⟩ | ⟨_, _, _, _, rfl⟩ := validateOrder_eq_ok_iff.1 h <;> rfl
  | filter =>
    obtain ⟨_, rfl, _⟩ := exists_of_validateKeys h
    rfl
  | body =>
    obtain ⟨_, rfl, _⟩ := exists_of_validateKeys h
    rfl
  | relations =>
    cases h
    rfl

/-- The names under which the check of a feature records values. -/
def EndpointSchema.writes (schema : EndpointSchema) : Capability → List String
  | .pagination => ["limit", "offset"]
  | .search => ["q"]
  | .fields => ["fields"]
  | .order => ["order"]
  | .filter => schema.filterKeys
  | .body => schema.bodyColumns
  | .relations => []

/-- The checks of values keep what is recorded for the parameters of other features. -/
theorem get?_of_validateCapability {c : Capability} {name : String} (hname : name ∉ schema.writes c)
    (h : validateCapability config schema sent valid c = .ok valid') :
    valid'.values.get? name = valid.values.get? name := by
  cases c with
  | pagination =>
    obtain ⟨_, _, _, _, _, _, rfl⟩ := validatePagination_eq_ok_iff.1 h
    have hne : "limit" ≠ name ∧ "offset" ≠ name := by
      simpa [EndpointSchema.writes, eq_comm] using hname
    simp only [OrderedMap.get?_insert, if_neg hne.1, if_neg hne.2]
  | search =>
    obtain ⟨_, _, _, rfl⟩ := validateSearch_eq_ok_iff.1 h
    rw [OrderedMap.get?_insert, if_neg (List.ne_of_not_mem_cons hname).symm]
  | fields =>
    obtain ⟨_, rfl⟩ | ⟨_, _, _, _, rfl⟩ := validateFields_eq_ok_iff.1 h
    · rfl
    · rw [OrderedMap.get?_insert, if_neg (List.ne_of_not_mem_cons hname).symm]
  | order =>
    obtain ⟨_, rfl⟩ | ⟨_, _, _, _, rfl⟩ := validateOrder_eq_ok_iff.1 h
    · rfl
    · rw [OrderedMap.get?_insert, if_neg (List.ne_of_not_mem_cons hname).symm]
  | filter =>
    obtain ⟨_, rfl, hvalues⟩ := exists_of_validateKeys h
    exact hvalues name (.inl hname)
  | body =>
    obtain ⟨_, rfl, hvalues⟩ := exists_of_validateKeys h
    exact hvalues name (.inl hname)
  | relations =>
    cases h
    rfl

/-! ## Requests -/

/-- A request passes if its method suits all features, its names are accepted and the checks of its
values pass one after the other. -/
theorem validate_eq_ok_iff {method : Method} {params : Params} :
    validate config schema method params = .ok valid ↔
      (∀ c ∈ schema.declared, c.allows method = true) ∧
      ∃ sent, canonicalParams schema params = .ok sent ∧
        schema.declared.foldlM (fun valid c => validateCapability config schema sent valid c)
          (.initial config method params) = .ok valid := by
  rw [validate, bind_eq_ok_iff, ← checkMethod_eq_ok_iff]
  simp only [bind_eq_ok_iff]
  exact ⟨fun ⟨_, hmethod, h⟩ => ⟨hmethod, h⟩, fun ⟨hmethod, h⟩ => ⟨(), hmethod, h⟩⟩

/-- An endpoint is what it was made from. -/
theorem Endpoint.eq_of_create {endpoint : Endpoint}
    (h : create config schema = .ok endpoint) : endpoint = ⟨config, schema⟩ := by
  obtain ⟨_, _, h⟩ := bind_eq_ok_iff.1 h
  obtain ⟨_, _, h⟩ := bind_eq_ok_iff.1 h
  split at h
  · obtain ⟨_, _, h⟩ := bind_eq_ok_iff.1 h
    exact (Except.ok.inj h).symm
  · exact (Except.ok.inj h).symm

/-- A request compiles if it passes and its conditions and its order can be built. -/
theorem Endpoint.compile_eq_ok_iff {e : Endpoint} {method : Method} {params : Params}
    {intent : QueryIntent} :
    e.compile method params = .ok intent ↔
      ∃ valid filter order, validate e.config e.schema method params = .ok valid ∧
        addConditions valid e.schema.filterKeys {} = .ok filter ∧
        requestedOrder e.config e.schema valid = .ok order ∧
        intent = {
          fields := selectedFields e.schema valid
          filter := filter
          search := requestedSearch e.schema valid
          order := order
          pagination := ⟨valid.limit, valid.offset⟩
          body := requestedBody e.schema valid } := by
  simp only [compile, QueryIntent.build, bind_eq_ok_iff, pure_eq_ok_iff]
  constructor
  · rintro ⟨valid, hvalid, filter, hfilter, order, horder, rfl⟩
    exact ⟨valid, filter, order, hvalid, hfilter, horder, rfl⟩
  · rintro ⟨valid, filter, order, hvalid, hfilter, horder, rfl⟩
    exact ⟨valid, hvalid, filter, hfilter, order, horder, rfl⟩

end

end ParamQuery
