import ParamQuery.Proofs.Request.Accepted

/-!
# The first fault

A request can be wrong in many ways at once. Its checks have a fixed order, and the error is that of
the first one that fails: the method against each declared feature, then the names in the order
sent, then the values, parameter by parameter. What each check asks for is said about what was sent,
without the map of canonical names that is read on the way.

## Main definitions

* `FirstFault`, `Reports` — the error of the first check that fails, and a computation that fails
  with it.
* `RequestCheck`, `EndpointSchema.requestChecks` — the checks of a request, in their order.
* `RequestCheck.Fails` — a check fails with an error.

## Main statements

* `Reports.cons`, `Reports.bind`, `reports_foldlM` — computations one after the other report the
  checks of each, one after the other.
* `reports_checkMethod`, `reports_addCanonical`, `reports_validateCapability` — the checks of the
  method, of the names and of the values.
* `validate_eq_error_iff` — a request is refused with the error of its first check that fails.
-/

namespace ParamQuery

/-! ## Checks in sequence -/

section

variable {ε γ α β : Type} {fails : γ → ε → Prop} {c : γ} {cs ds : List γ} {e : ε}

/-- The error of the first check that fails: all checks before it pass. -/
def FirstFault (fails : γ → ε → Prop) (checks : List γ) (e : ε) : Prop :=
  ∃ before check after, checks = before ++ check :: after ∧
    (∀ c ∈ before, ∀ e', ¬ fails c e') ∧ fails check e

/-- A computation fails with the error of the first check that fails, and only with that. -/
def Reports (fails : γ → ε → Prop) (x : Except ε α) (checks : List γ) : Prop :=
  ∀ e, x = .error e ↔ FirstFault fails checks e

theorem not_firstFault_nil : ¬ FirstFault fails [] e := by
  rintro ⟨before, check, after, hnil, _⟩
  simp at hnil

theorem firstFault_cons_iff :
    FirstFault fails (c :: cs) e ↔
      fails c e ∨ (∀ e', ¬ fails c e') ∧ FirstFault fails cs e := by
  constructor
  · rintro ⟨before, check, after, heq, hbefore, hfails⟩
    cases before with
    | nil =>
      obtain ⟨rfl, rfl⟩ := List.cons.inj heq
      exact .inl hfails
    | cons first before =>
      obtain ⟨rfl, rfl⟩ := List.cons.inj heq
      rw [List.forall_mem_cons] at hbefore
      exact .inr ⟨hbefore.1, before, check, after, rfl, hbefore.2, hfails⟩
  · rintro (hfails | ⟨hpasses, before, check, after, rfl, hbefore, hfails⟩)
    · exact ⟨[], c, cs, rfl, nofun, hfails⟩
    · exact ⟨c :: before, check, after, rfl, List.forall_mem_cons.2 ⟨hpasses, hbefore⟩, hfails⟩

theorem firstFault_singleton_iff : FirstFault fails [c] e ↔ fails c e := by
  simp [firstFault_cons_iff, not_firstFault_nil]

theorem firstFault_append_iff :
    FirstFault fails (cs ++ ds) e ↔
      FirstFault fails cs e ∨ (∀ e', ¬ FirstFault fails cs e') ∧ FirstFault fails ds e := by
  induction cs with
  | nil => simp [not_firstFault_nil]
  | cons c cs ih =>
    simp only [List.cons_append, firstFault_cons_iff, ih]
    grind

/-- A computation that makes one check first. -/
theorem Reports.cons {x : Except ε α} (hfails : ∀ e, fails c e → x = .error e)
    (hpasses : (∀ e, ¬ fails c e) → Reports fails x cs) : Reports fails x (c :: cs) := by
  intro e
  rw [firstFault_cons_iff]
  by_cases hc : ∃ e', fails c e'
  · obtain ⟨e', he'⟩ := hc
    have hx := hfails e' he'
    constructor
    · intro h
      obtain rfl : e' = e := Except.error.inj (hx.symm.trans h)
      exact .inl he'
    · rintro (he | ⟨hnone, _⟩)
      · exact hfails e he
      · exact absurd he' (hnone e')
  · rw [not_exists] at hc
    rw [hpasses hc e]
    simp [hc]

theorem reports_ok (a : α) : Reports fails (.ok a : Except ε α) [] := by
  intro e
  simp [not_firstFault_nil]

/-- The checks of two computations, one after the other. -/
theorem Reports.bind {x : Except ε α} {f : α → Except ε β} (hx : Reports fails x cs)
    (hf : ∀ a, x = .ok a → Reports fails (f a) ds) : Reports fails (x >>= f) (cs ++ ds) := by
  intro e
  rw [bind_eq_error_iff, firstFault_append_iff, hx e]
  refine or_congr_right ?_
  constructor
  · rintro ⟨a, rfl, h⟩
    have hnone (e' : ε) : ¬ FirstFault fails cs e' := by
      intro he'
      cases (hx e').2 he'
    exact ⟨hnone, (hf a rfl e).1 h⟩
  · rintro ⟨hnone, h⟩
    cases x with
    | error e' => exact absurd ((hx e').1 rfl) (hnone e')
    | ok a => exact ⟨a, rfl, (hf a rfl e).2 h⟩

/-- The checks of the steps of a run, one step after the other. -/
theorem reports_foldlM {step : β → α → Except ε β} {checks : α → List γ} {P : β → Prop}
    {xs : List α} {b : β} (hstep : ∀ x ∈ xs, ∀ b, P b → Reports fails (step b x) (checks x))
    (hkeep : ∀ x ∈ xs, ∀ b b', P b → step b x = .ok b' → P b') (hb : P b) :
    Reports fails (xs.foldlM step b) (xs.flatMap checks) := by
  induction xs generalizing b with
  | nil => exact reports_ok b
  | cons x xs ih =>
    rw [List.foldlM_cons, List.flatMap_cons]
    refine (hstep x List.mem_cons_self b hb).bind fun b' hb' => ?_
    exact ih (fun y hy => hstep y (List.mem_cons_of_mem x hy))
      (fun y hy => hkeep y (List.mem_cons_of_mem x hy)) (hkeep x List.mem_cons_self b b' hb hb')

end

/-! ## The checks of a request -/

/-- A check that is made of a request. -/
inductive RequestCheck where
  /-- The method suits a feature. -/
  | feature (c : Capability)
  /-- A name is declared, and differs in canonical form from those before it. -/
  | name (earlier : List String) (name : String)
  | limit
  | offset
  | q
  | fields
  | order
  /-- The value of a filter key or of a column to write. -/
  | key (key : String)
  deriving DecidableEq, Repr

/-- A check fails with an error, for a request with a method and parameters to an endpoint. -/
inductive RequestCheck.Fails (config : Config) (schema : EndpointSchema) (method : Method)
    (params : Params) : RequestCheck → Error → Prop where
  | feature {c : Capability} : c.allows method = false →
    Fails config schema method params (.feature c) (.methodNotAllowed c method)
  | undeclared {earlier : List String} {name : String} : isSuppression name = false →
    schema.declares (canonical name) = false →
    Fails config schema method params (.name earlier name) (.unknownParameter name)
  | repeated {earlier : List String} {name other : String} : isSuppression name = false →
    schema.declares (canonical name) = true → other ∈ earlier → canonical other = canonical name →
    Fails config schema method params (.name earlier name) (.invalidValue name .duplicate)
  | limit {value : ParamValue} {fault : ValueFault} : params.Sends "limit" value →
    value.LimitFault config fault →
    Fails config schema method params .limit (.invalidValue "limit" fault)
  | offset {value : ParamValue} {fault : ValueFault} : params.Sends "offset" value →
    value.CountFault fault →
    Fails config schema method params .offset (.invalidValue "offset" fault)
  | q {texts : List String} : params.Sends "q" (.many texts) →
    Fails config schema method params .q (.invalidValue "q" .notSingle)
  | fields {allow : FieldAllowList} {value : ParamValue} : schema.fields = some allow →
    params.Sends "fields" value →
    allow.allows (.parse (canonicalFields value.joined)) = false →
    Fails config schema method params .fields .fieldsNotApplicable
  | relations {allow : FieldAllowList} {value : ParamValue} : schema.fields = some allow →
    params.Sends "fields" value →
    allow.allows (.parse (canonicalFields value.joined)) = true →
    FieldSelection.wantsRelation (.parse (canonicalFields value.joined)) allow = true →
    Capability.relations.allows method = false →
    Fails config schema method params .fields (.methodNotAllowed .relations method)
  | order {columns : List String} {value : ParamValue} : schema.order = some columns →
    params.Sends "order" value → ¬ value.IsOrder columns →
    Fails config schema method params .order .orderNotApplicable
  | list {key : String} {texts : List String} : params.Sends key (.many texts) →
    Fails config schema method params (.key key) (.invalidValue key .notSingle)
  | text {key text : String} {fault : ValueFault} : params.Sends key (.single text) →
    (schema.rule key).fault? text = some fault →
    Fails config schema method params (.key key) (.invalidValue key fault)
  | missing {key : String} : (∀ value, ¬ params.Sends key value) →
    (schema.rule key).required = true →
    Fails config schema method params (.key key) (.invalidValue key .missing)

/-- The features in the order in which they are checked. -/
def featureOrder : List Capability := [.pagination, .search, .fields, .order, .filter, .body]

/-- The checks of names, each with the names that were sent before it. -/
def nameChecks (earlier : List String) : List String → List RequestCheck
  | [] => []
  | name :: rest => .name earlier name :: nameChecks (earlier ++ [name]) rest

namespace EndpointSchema

/-- The declared features in the order in which they are checked. -/
def features (schema : EndpointSchema) : List Capability :=
  featureOrder.filter fun c => schema.declared.contains c

/-- The checks of the values that belong to a feature. -/
def valueChecks (schema : EndpointSchema) : Capability → List RequestCheck
  | .pagination => [.limit, .offset]
  | .search => [.q]
  | .fields => [.fields]
  | .order => [.order]
  | .filter => schema.filterKeys.map .key
  | .body => schema.bodyColumns.map .key
  | .relations => []

/-- The checks of a request, in the order in which they are made. -/
def requestChecks (schema : EndpointSchema) (params : Params) : List RequestCheck :=
  schema.features.map .feature ++ nameChecks [] params.keys ++
    schema.features.flatMap schema.valueChecks

theorem features_eq_declared (schema : EndpointSchema) : schema.features = schema.declared := by
  unfold features declared
  generalize schema.pagination = pagination
  generalize schema.search.isSome = search
  generalize schema.fields.isSome = fields
  generalize schema.order.isSome = order
  generalize schema.filter.isSome = filter
  generalize schema.body.isSome = body
  revert pagination search fields order filter body
  decide

end EndpointSchema

variable {config : Config} {schema : EndpointSchema} {method : Method} {params : Params}
  {sent : OrderedMap ParamValue} {valid : ValidParams} {e : Error}

/-! ## The method and the names -/

theorem reports_checkMethod :
    Reports (RequestCheck.Fails config schema method params) (checkMethod schema method)
      (schema.declared.map .feature) := by
  unfold checkMethod
  induction schema.declared with
  | nil => exact reports_ok ()
  | cons c rest ih =>
    rw [List.map_cons, List.find?_cons]
    apply Reports.cons
    · rintro e ⟨hrefused⟩
      rw [hrefused]
      rfl
    · intro hpasses
      have hsuits : c.allows method = true := by
        by_contra hrefused
        exact hpasses _ (.feature (Bool.eq_false_iff.2 hrefused))
      rw [hsuits]
      exact ih

/-- Names are checked one after the other; what was recorded so far are those before them. -/
theorem reports_addCanonical {entries : List (String × ParamValue)} {earlier : List String}
    (hsent : ∀ key, sent.contains key = true ↔
      ∃ name ∈ earlier, isSuppression name = false ∧ canonical name = key) :
    Reports (RequestCheck.Fails config schema method params) (addCanonical schema sent entries)
      (nameChecks earlier (Assoc.keys entries)) := by
  induction entries generalizing sent earlier with
  | nil => exact reports_ok sent
  | cons entry rest ih =>
    obtain ⟨name, value⟩ := entry
    unfold addCanonical
    apply Reports.cons
    · intro e hfails
      cases hfails with
      | undeclared hname hdeclares => simp [hname, hdeclares]
      | @repeated _ _ other hname hdeclares hother hcanonical =>
        have hotherName : isSuppression other = false := by
          rw [← hname, isSuppression, isSuppression, hcanonical]
        have hcontains := (hsent _).2 ⟨other, hother, hotherName, hcanonical⟩
        simp [hname, hdeclares, hcontains]
    · intro hpasses
      by_cases hname : isSuppression name = true
      · rw [if_pos hname]
        refine ih fun key => ?_
        simp [hsent key, hname]
      rw [Bool.not_eq_true] at hname
      have hdeclares : schema.declares (canonical name) = true := by
        by_contra hundeclared
        exact hpasses _ (.undeclared hname (Bool.eq_false_iff.2 hundeclared))
      have hnew : sent.contains (canonical name) = false := by
        by_contra hcontains
        rw [Bool.not_eq_false] at hcontains
        obtain ⟨other, hother, _, hcanonical⟩ := (hsent _).1 hcontains
        exact hpasses _ (.repeated hname hdeclares hother hcanonical)
      rw [hname, hdeclares, hnew]
      refine ih fun key => ?_
      rw [OrderedMap.contains_insert, Bool.or_eq_true, beq_iff_eq, hsent key]
      simp only [List.mem_append, List.mem_singleton, or_and_right, exists_or, exists_eq_left,
        hname, true_and]
      exact or_comm

theorem reports_canonicalParams :
    Reports (RequestCheck.Fails config schema method params) (canonicalParams schema params)
      (nameChecks [] params.keys) :=
  reports_addCanonical fun key => by simp [OrderedMap.contains]

/-! ## The values -/

/-- A value is read if it was sent, and only then can it be wrong. -/
theorem reports_sent {α : Type} {key : String} {check : RequestCheck} {standing : α}
    {read : ParamValue → Except Error α}
    (hsent : sent.entries = canonicalEntries params.entries)
    (hfails : ∀ e, RequestCheck.Fails config schema method params check e ↔
      ∃ value, params.Sends key value ∧ read value = .error e) :
    Reports (RequestCheck.Fails config schema method params)
      ((sent.get? key).elim (pure standing) read) [check] := by
  intro e
  rw [firstFault_singleton_iff, hfails]
  simp only [← Params.get?_iff_sends hsent]
  cases sent.get? key with
  | none => simp [pure_ne_error]
  | some value => simp

theorem reports_validatePagination (hsent : sent.entries = canonicalEntries params.entries) :
    Reports (RequestCheck.Fails config schema method params)
      (validatePagination config sent valid) [.limit, .offset] := by
  have hread : validatePagination config sent valid =
      (sent.get? "limit").elim (pure valid.limit) (readLimit config) >>= fun limit =>
        (sent.get? "offset").elim (pure valid.offset) (readCount "offset") >>= fun offset =>
          pure { valid with
            limit := limit
            offset := offset
            values := (valid.values.insert "limit" (toString limit)).insert "offset"
              (toString offset) } := by
    unfold validatePagination
    cases sent.get? "limit" <;> cases sent.get? "offset" <;> rfl
  have hlimit (e : Error) : RequestCheck.Fails config schema method params .limit e ↔
      ∃ value, params.Sends "limit" value ∧ readLimit config value = .error e := by
    simp only [readLimit_eq_error_iff]
    constructor
    · intro hfails
      cases hfails with
      | limit hvalue hfault => exact ⟨_, hvalue, _, hfault, rfl⟩
    · rintro ⟨value, hvalue, fault, hfault, rfl⟩
      exact .limit hvalue hfault
  have hoffset (e : Error) : RequestCheck.Fails config schema method params .offset e ↔
      ∃ value, params.Sends "offset" value ∧ readCount "offset" value = .error e := by
    simp only [readCount_eq_error_iff]
    constructor
    · intro hfails
      cases hfails with
      | offset hvalue hfault => exact ⟨_, hvalue, _, hfault, rfl⟩
    · rintro ⟨value, hvalue, fault, hfault, rfl⟩
      exact .offset hvalue hfault
  rw [hread]
  exact (reports_sent hsent hlimit).bind fun _ _ =>
    (reports_sent hsent hoffset).bind fun _ _ => reports_ok _

theorem reports_validateSearch (hsent : sent.entries = canonicalEntries params.entries) :
    Reports (RequestCheck.Fails config schema method params) (validateSearch sent valid) [.q] := by
  have hread : validateSearch sent valid =
      (sent.get? "q").elim (pure "") (singleText "q") >>= fun q =>
        pure { valid with values := valid.values.insert "q" q } := by
    unfold validateSearch
    cases sent.get? "q" <;> rfl
  rw [hread]
  refine (reports_sent hsent fun e => ?_).bind fun _ _ => reports_ok _
  constructor
  · intro hfails
    cases hfails with
    | q hvalue => exact ⟨_, hvalue, rfl⟩
  · rintro ⟨value, hvalue, h⟩
    cases value with
    | single text => cases h
    | many texts =>
      cases h
      exact .q hvalue

theorem fails_fields_iff {allow : FieldAllowList} (hallow : schema.fields = some allow) :
    RequestCheck.Fails config schema method params .fields e ↔
      ∃ value, params.Sends "fields" value ∧
        (allow.allows (.parse (canonicalFields value.joined)) = false ∧ e = .fieldsNotApplicable ∨
        allow.allows (.parse (canonicalFields value.joined)) = true ∧
          (FieldSelection.wantsRelation (.parse (canonicalFields value.joined)) allow &&
            !Capability.relations.allows method) = true ∧
          e = .methodNotAllowed .relations method) := by
  simp only [Bool.and_eq_true, Bool.not_eq_true']
  constructor
  · intro hfails
    cases hfails with
    | fields hallow' hvalue hrefused =>
      obtain rfl := Option.some.inj (hallow.symm.trans hallow')
      exact ⟨_, hvalue, .inl ⟨hrefused, rfl⟩⟩
    | relations hallow' hvalue hallows hwants hmethod =>
      obtain rfl := Option.some.inj (hallow.symm.trans hallow')
      exact ⟨_, hvalue, .inr ⟨hallows, ⟨hwants, hmethod⟩, rfl⟩⟩
  · rintro ⟨value, hvalue, ⟨hrefused, rfl⟩ | ⟨hallows, ⟨hwants, hmethod⟩, rfl⟩⟩
    · exact .fields hallow hvalue hrefused
    · exact .relations hallow hvalue hallows hwants hmethod

theorem fails_order_iff {columns : List String} (hcolumns : schema.order = some columns) :
    RequestCheck.Fails config schema method params .order e ↔
      ∃ value, params.Sends "order" value ∧ ¬ value.IsOrder columns ∧ e = .orderNotApplicable := by
  constructor
  · intro hfails
    cases hfails with
    | order hcolumns' hvalue horder =>
      obtain rfl := Option.some.inj (hcolumns.symm.trans hcolumns')
      exact ⟨_, hvalue, horder, rfl⟩
  · rintro ⟨value, hvalue, horder, rfl⟩
    exact .order hcolumns hvalue horder

theorem reports_validateFields {allow : FieldAllowList} (hallow : schema.fields = some allow)
    (hsent : sent.entries = canonicalEntries params.entries) :
    Reports (RequestCheck.Fails config schema valid.method params)
      (validateFields allow sent valid) [.fields] := by
  intro e
  rw [firstFault_singleton_iff, fails_fields_iff hallow, validateFields]
  simp only [← Params.get?_iff_sends hsent]
  cases sent.get? "fields" with
  | none => simp
  | some value =>
    simp only [Option.some.injEq, exists_eq_left']
    generalize canonicalFields value.joined = text
    cases allow.allows (.parse text) with
    | false => simp [@eq_comm _ e]
    | true =>
      cases FieldSelection.wantsRelation (.parse text) allow &&
          !Capability.relations.allows valid.method with
      | false => simp
      | true => simp [@eq_comm _ e]

theorem reports_validateOrder {columns : List String} (hcolumns : schema.order = some columns)
    (hsent : sent.entries = canonicalEntries params.entries) :
    Reports (RequestCheck.Fails config schema method params)
      (validateOrder columns sent valid) [.order] := by
  intro e
  rw [firstFault_singleton_iff, fails_order_iff hcolumns, validateOrder]
  simp only [← Params.get?_iff_sends hsent, ← exists_applicableOrder?_iff]
  cases sent.get? "order" with
  | none => simp
  | some value =>
    dsimp only
    cases happlicable : applicableOrder? columns value with
    | none => simp [happlicable, eq_comm]
    | some order => simp [happlicable]

theorem reports_validateKeys {keys : List String}
    (hsent : sent.entries = canonicalEntries params.entries) :
    Reports (RequestCheck.Fails config schema method params)
      (validateKeys schema sent keys valid) (keys.map .key) := by
  induction keys generalizing valid with
  | nil => exact reports_ok valid
  | cons key rest ih =>
    rw [validateKeys]
    apply Reports.cons
    · intro e hfails
      cases hfails with
      | list hvalue =>
        rw [(Params.get?_iff_sends hsent).2 hvalue]
        rfl
      | text hvalue hfault =>
        rw [(Params.get?_iff_sends hsent).2 hvalue]
        dsimp only [singleText, ParamValue.single?, bind, Except.bind]
        rw [hfault]
        rfl
      | missing hnone hrequired =>
        rw [(Params.get?_eq_none_iff hsent).2 hnone]
        dsimp only
        rw [if_pos hrequired]
        rfl
    · intro hpasses
      cases hget : sent.get? key with
      | none =>
        have hoptional : (schema.rule key).required = false := by
          by_contra hrequired
          rw [Bool.not_eq_false] at hrequired
          exact hpasses _ (.missing ((Params.get?_eq_none_iff hsent).1 hget) hrequired)
        rw [hoptional]
        exact ih
      | some value =>
        rw [Params.get?_iff_sends hsent] at hget
        cases value with
        | many texts => exact absurd (.list hget) (hpasses _)
        | single text =>
          cases hfault : (schema.rule key).fault? text with
          | some fault => exact absurd (.text hget hfault) (hpasses _)
          | none =>
            dsimp only [singleText, ParamValue.single?, bind, Except.bind]
            rw [hfault]
            exact ih

/-- The values of a declared feature are checked parameter by parameter. -/
theorem reports_validateCapability {c : Capability} (hc : c ∈ schema.declared)
    (hsent : sent.entries = canonicalEntries params.entries) :
    Reports (RequestCheck.Fails config schema valid.method params)
      (validateCapability config schema sent valid c) (schema.valueChecks c) := by
  cases c with
  | pagination => exact reports_validatePagination hsent
  | search => exact reports_validateSearch hsent
  | fields =>
    obtain ⟨allow, hallow⟩ : ∃ allow, schema.fields = some allow := by
      simpa [EndpointSchema.declared, Option.isSome_iff_exists] using hc
    rw [validateCapability, hallow, Option.getD_some]
    exact reports_validateFields hallow hsent
  | order =>
    obtain ⟨columns, hcolumns⟩ : ∃ columns, schema.order = some columns := by
      simpa [EndpointSchema.declared, Option.isSome_iff_exists] using hc
    rw [validateCapability, hcolumns, Option.getD_some]
    exact reports_validateOrder hcolumns hsent
  | filter => exact reports_validateKeys hsent
  | body => exact reports_validateKeys hsent
  | relations => exact reports_ok valid

/-! ## Requests -/

/-- A request is refused with the error of the first of its checks that fails, whatever comes after
that one; and it is refused only then. -/
theorem validate_eq_error_iff :
    validate config schema method params = .error e ↔
      FirstFault (RequestCheck.Fails config schema method params)
        (schema.requestChecks params) e := by
  have hvalues (sent : OrderedMap ParamValue) (hsent : canonicalParams schema params = .ok sent) :
      Reports (RequestCheck.Fails config schema method params)
        (schema.declared.foldlM (fun valid c => validateCapability config schema sent valid c)
          (.initial config method params))
        (schema.declared.flatMap schema.valueChecks) := by
    obtain ⟨_, _, hentries⟩ := canonicalParams_eq_ok_iff.1 hsent
    -- a check may look at the method, which no check changes
    refine reports_foldlM (P := fun valid => valid.method = method) ?_ ?_ rfl
    · rintro c hc valid rfl
      exact reports_validateCapability hc hentries
    · rintro c - valid valid' rfl h
      exact method_of_validateCapability h
  have hrequest : Reports (RequestCheck.Fails config schema method params)
      (validate config schema method params) (schema.requestChecks params) := by
    rw [EndpointSchema.requestChecks, EndpointSchema.features_eq_declared, List.append_assoc]
    exact reports_checkMethod.bind fun _ _ => reports_canonicalParams.bind hvalues
  exact hrequest e

example : validate {} { pagination := true, filter := some ["age"] } .get
    (.ofList [("age", .many []), ("agee", .single ""), ("limit", .single "0")]) =
      .error (.unknownParameter "agee") :=
  rfl

end ParamQuery
