import ParamQuery.Proofs.Request.Checks
import ParamQuery.Proofs.Request.Names

/-!
# Values that are recorded

The parameters of all features are recorded in one map, by canonical name. A filter key or a column
to write may have the name of a parameter of another feature, which records a value of its own, sent
or not. What is recorded under such a name in the end is what was sent, and, if nothing was sent,
the value that the other feature takes then.

## Main definitions

* `EndpointSchema.standing?` — the value that a feature takes for a parameter that is not sent.
* `EndpointSchema.Supplies` — where the value of a filter key or of a column to write comes from.

## Main statements

* `recorded_of_sends` — what was sent for a key is recorded as it was sent.
* `supplies_of_recorded` — what is recorded for a key was sent or stands for what was not.
-/

namespace ParamQuery

namespace EndpointSchema

/-- The value that a declared feature takes for a parameter that is not sent: the configured page,
and the empty text to search for. -/
def standing? (schema : EndpointSchema) (config : Config) (name : String) : Option String :=
  if schema.pagination = true ∧ name = "limit" then some (toString config.defaultLimit)
  else if schema.pagination = true ∧ name = "offset" then some (toString config.defaultOffset)
  else if schema.search.isSome = true ∧ name = "q" then some ""
  else none

/-- Where the value of a filter key or of a column to write comes from. -/
inductive Supplies (schema : EndpointSchema) (config : Config) (params : Params)
    (name text : String) : Prop where
  /-- It was sent, and its rule admits it. -/
  | sent : params.Sends name (.single text) → (schema.rule name).Admits text →
    Supplies schema config params name text
  /-- It was not sent, and stands for a parameter of that name. -/
  | standing : (∀ value, ¬ params.Sends name value) → schema.standing? config name = some text →
    Supplies schema config params name text

end EndpointSchema

variable {config : Config} {schema : EndpointSchema} {method : Method} {params : Params}
  {sent : OrderedMap ParamValue} {valid valid' : ValidParams} {name : String}

/-! ## What was not sent -/

/-- What is recorded so far under a name that was not sent stands for it, and the page is the
configured one as far as it bears that name. -/
structure ValidParams.Standing (config : Config) (schema : EndpointSchema) (name : String)
    (valid : ValidParams) : Prop where
  value : ∀ text, valid.values.get? name = some text → schema.standing? config name = some text
  limit : name = "limit" → valid.limit = config.defaultLimit
  offset : name = "offset" → valid.offset = config.defaultOffset

namespace ValidParams.Standing

/-- Only the values under other names change. -/
theorem of_get?_eq (h : valid.Standing config schema name) {values : OrderedMap String}
    (hvalues : values.get? name = valid.values.get? name) :
    { valid with values := values : ValidParams }.Standing config schema name :=
  ⟨fun text htext => h.value text (hvalues ▸ htext), h.limit, h.offset⟩

theorem initial : (ValidParams.initial config method params).Standing config schema name :=
  ⟨nofun, fun _ => rfl, fun _ => rfl⟩

/-- The checks of all features record for a name that was not sent what stands for it. -/
theorem validateCapability (hunsent : sent.get? name = none) {c : Capability}
    (hc : c ∈ schema.declared) (hvalid : valid.Standing config schema name)
    (h : validateCapability config schema sent valid c = .ok valid') :
    valid'.Standing config schema name := by
  have hother {other : String} {value : ParamValue} (hvalue : sent.get? other = some value) :
      other ≠ name := by
    rintro rfl
    rw [hunsent] at hvalue
    cases hvalue
  cases c with
  | pagination =>
    have hpagination : schema.pagination = true := by
      simpa [EndpointSchema.declared] using hc
    obtain ⟨limit, offset, _, hlimit, _, hoffset, rfl⟩ := validatePagination_eq_ok_iff.1 h
    have hlimit' : name = "limit" → limit = config.defaultLimit := by
      rintro rfl
      rw [hlimit hunsent, hvalid.limit rfl]
    have hoffset' : name = "offset" → offset = config.defaultOffset := by
      rintro rfl
      rw [hoffset hunsent, hvalid.offset rfl]
    refine ⟨fun text htext => ?_, hlimit', hoffset'⟩
    simp only [OrderedMap.get?_insert] at htext
    split at htext
    · next hname =>
      subst hname
      rw [← htext, hoffset' rfl]
      simp [EndpointSchema.standing?, hpagination]
    · split at htext
      · next hname =>
        subst hname
        rw [← htext, hlimit' rfl]
        simp [EndpointSchema.standing?, hpagination]
      · exact hvalid.value text htext
  | search =>
    have hsearch : schema.search.isSome = true := by
      simpa [EndpointSchema.declared] using hc
    obtain ⟨q, _, hq, rfl⟩ := validateSearch_eq_ok_iff.1 h
    refine ⟨fun text htext => ?_, hvalid.limit, hvalid.offset⟩
    simp only [OrderedMap.get?_insert] at htext
    split at htext
    · next hname =>
      subst hname
      rw [← htext, hq hunsent]
      simp [EndpointSchema.standing?, hsearch]
    · exact hvalid.value text htext
  | fields =>
    obtain ⟨_, rfl⟩ | ⟨_, hvalue, _, _, rfl⟩ := validateFields_eq_ok_iff.1 h
    · exact hvalid
    · exact hvalid.of_get?_eq (by rw [OrderedMap.get?_insert, if_neg (hother hvalue)])
  | order =>
    obtain ⟨_, rfl⟩ | ⟨_, _, hvalue, _, rfl⟩ := validateOrder_eq_ok_iff.1 h
    · exact hvalid
    · exact hvalid.of_get?_eq (by rw [OrderedMap.get?_insert, if_neg (hother hvalue)])
  | filter =>
    obtain ⟨values, rfl, hvalues⟩ := exists_of_validateKeys h
    exact hvalid.of_get?_eq (hvalues name (.inr hunsent))
  | body =>
    obtain ⟨values, rfl, hvalues⟩ := exists_of_validateKeys h
    exact hvalid.of_get?_eq (hvalues name (.inr hunsent))
  | relations =>
    cases h
    exact hvalid

end ValidParams.Standing

/-! ## What was sent -/

namespace EndpointSchema

/-- The features whose parameters are named by the declaration. -/
def keyed (schema : EndpointSchema) : List Capability :=
  (if schema.filter.isSome then [.filter] else []) ++ (if schema.body.isSome then [.body] else [])

/-- The values of keys are checked last. -/
theorem exists_declared_eq_append_keyed (schema : EndpointSchema) :
    ∃ leading, schema.declared = leading ++ schema.keyed :=
  ⟨_, List.append_assoc _ _ _⟩

theorem filter_mem_keyed (h : name ∈ schema.filterKeys) : .filter ∈ schema.keyed := by
  cases hfilter : schema.filter with
  | none => simp [filterKeys, hfilter] at h
  | some keys => simp [keyed, hfilter]

theorem body_mem_keyed (h : name ∈ schema.bodyColumns) : .body ∈ schema.keyed := by
  cases hbody : schema.body with
  | none => simp [bodyColumns, hbody] at h
  | some columns => simp [keyed, hbody]

end EndpointSchema

theorem exists_keys_of_mem_keyed {c : Capability} (hc : c ∈ schema.keyed) :
    ∃ keys, ∀ valid, validateCapability config schema sent valid c =
      validateKeys schema sent keys valid := by
  have hcases : c = .filter ∨ c = .body := by
    simp only [EndpointSchema.keyed, List.mem_append] at hc
    refine hc.imp ?_ ?_ <;> intro h <;> split at h <;> simp_all
  rcases hcases with rfl | rfl
  · exact ⟨schema.filterKeys, fun _ => rfl⟩
  · exact ⟨schema.bodyColumns, fun _ => rfl⟩

/-- What was sent for a filter key or a column to write is one text that its rule admits, and it is
recorded as it was sent. -/
theorem recorded_of_sends (h : validate config schema method params = .ok valid)
    (hname : name ∈ schema.filterKeys ∨ name ∈ schema.bodyColumns) {value : ParamValue}
    (hvalue : params.Sends name value) :
    ∃ text, value = .single text ∧ (schema.rule name).Admits text ∧
      valid.values.get? name = some text := by
  obtain ⟨_, sent, hsent, h⟩ := validate_eq_ok_iff.1 h
  have hread : sent.get? name = some value :=
    (Params.get?_iff_sends (canonicalParams_eq_ok_iff.1 hsent).2.2).2 hvalue
  obtain ⟨leading, hdeclared⟩ := schema.exists_declared_eq_append_keyed
  rw [hdeclared, List.foldlM_append, bind_eq_ok_iff] at h
  obtain ⟨initial, _, h⟩ := h
  obtain ⟨c, hc, hrecords⟩ : ∃ c ∈ schema.keyed, ∀ valid valid',
      validateCapability config schema sent valid c = .ok valid' →
        ∃ text, value = .single text ∧ (schema.rule name).Admits text ∧
          valid'.values.get? name = some text := by
    rcases hname with hname | hname
    · exact ⟨.filter, EndpointSchema.filter_mem_keyed hname,
        fun _ _ h => validateKeys_records hname hread h⟩
    · exact ⟨.body, EndpointSchema.body_mem_keyed hname,
        fun _ _ h => validateKeys_records hname hread h⟩
  refine foldlM_reaches (P := fun valid => ∃ text, value = .single text ∧
    (schema.rule name).Admits text ∧ valid.values.get? name = some text) hc hrecords ?_ h
  -- a key that both features declare is recorded twice, with the same text
  rintro other hother valid valid' ⟨text, rfl, hadmits, hvalid⟩ hstep
  obtain ⟨keys, hkeys⟩ := exists_keys_of_mem_keyed hother
  rw [hkeys] at hstep
  exact ⟨text, rfl, hadmits, validateKeys_keeps hread hvalid hstep⟩

/-- What is recorded for a filter key or a column to write was sent for it, or stands for what was
not. -/
theorem supplies_of_recorded (h : validate config schema method params = .ok valid)
    (hname : name ∈ schema.filterKeys ∨ name ∈ schema.bodyColumns) {text : String}
    (htext : valid.values.get? name = some text) : schema.Supplies config params name text := by
  by_cases hsends : ∃ value, params.Sends name value
  · obtain ⟨value, hvalue⟩ := hsends
    obtain ⟨text', rfl, hadmits, hrecorded⟩ := recorded_of_sends h hname hvalue
    obtain rfl : text' = text := Option.some.inj (hrecorded.symm.trans htext)
    exact .sent hvalue hadmits
  · rw [not_exists] at hsends
    obtain ⟨_, sent, hsent, h⟩ := validate_eq_ok_iff.1 h
    have hunsent : sent.get? name = none :=
      (Params.get?_eq_none_iff (canonicalParams_eq_ok_iff.1 hsent).2.2).2 hsends
    have hstanding : valid.Standing config schema name :=
      foldlM_preserves (fun _ hc _ _ => .validateCapability hunsent hc) .initial h
    exact .standing hsends (hstanding.value text htext)

end ParamQuery
