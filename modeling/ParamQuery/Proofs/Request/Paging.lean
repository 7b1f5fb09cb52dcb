import ParamQuery.Proofs.Request.Recorded
import ParamQuery.Store.Execution

/-!
# The page of a request

The size and the offset of a page are the counts that were sent, or the configured ones. The tables
take counts below `2 ^ 63`. A count that was sent is held against this bound; a configured one is
not, so it can be beyond what the tables take.

## Main definitions

* `EndpointSchema.Counts` — where a count of the page comes from.

## Main statements

* `Page.check_eq_ok_iff` — the pages that the tables take.
* `counts_of_validate` — the page of a request that passes its checks.
* `Endpoint.page_of_compile` — the bounds of the page of a compiled request.
-/

namespace ParamQuery

/-- The tables take pages whose counts are below `2 ^ 63`. -/
theorem Page.check_eq_ok_iff {page : Page} :
    page.check = .ok () ↔ page.limit ≤ largestCount ∧ page.offset ≤ largestCount := by
  have hholds (n : Nat) : IntegerType.int64.holds n = true ↔ n ≤ largestCount := by
    rw [IntegerType.int64_holds_ofNat_iff, largestCount]
    omega
  rw [check, ← hholds, ← hholds, ← Bool.and_eq_true]
  split <;> simp_all

/-- A configuration passes its check if its own size of a page is at least one row and within its
own bound. -/
theorem Config.check_eq_ok_iff {config : Config} :
    config.check = .ok () ↔
      1 ≤ config.defaultLimit ∧ ∀ max, config.maxLimit = some max → config.defaultLimit ≤ max := by
  unfold check
  cases config.maxLimit with
  | none =>
    split
    · next hzero => simp [hzero]
    · next hzero => simpa using Nat.one_le_iff_ne_zero.2 hzero
  | some max =>
    split
    · next hzero => simp [hzero]
    · next hzero =>
      have hone := Nat.one_le_iff_ne_zero.2 hzero
      dsimp only
      split
      · next hlt => simp [hlt]
      · next hle => simpa [hone] using hle

/-- Where a count of the page comes from. -/
inductive EndpointSchema.Counts (schema : EndpointSchema) (params : Params) (name : String)
    (configured : Nat) : Nat → Prop where
  /-- It was sent, where pages are declared. -/
  | sent {value : ParamValue} {n : Nat} : schema.pagination = true → params.Sends name value →
    value.IsCount n → Counts schema params name configured n
  /-- None was sent, or pages are not declared, and it is the configured one. -/
  | configured : (schema.pagination = true → ∀ value, ¬ params.Sends name value) →
    Counts schema params name configured configured

/-- A count beyond what the tables take is the configured one. -/
theorem EndpointSchema.Counts.eq_of_lt {schema : EndpointSchema} {params : Params} {name : String}
    {configured n : Nat} (h : schema.Counts params name configured n) (hn : largestCount < n) :
    n = configured := by
  cases h with
  | sent _ _ hcount =>
    obtain ⟨_, _, _, hle⟩ := hcount
    omega
  | configured _ => rfl

variable {config : Config} {schema : EndpointSchema} {method : Method} {params : Params}
  {sent : OrderedMap ParamValue} {valid valid' : ValidParams}

/-- Only the check of the page changes the page. -/
theorem page_of_validateCapability {c : Capability} (hc : c ≠ .pagination)
    (h : validateCapability config schema sent valid c = .ok valid') :
    valid'.limit = valid.limit ∧ valid'.offset = valid.offset := by
  cases c with
  | pagination => exact absurd rfl hc
  | search =>
    obtain ⟨_, _, _, rfl⟩ := validateSearch_eq_ok_iff.1 h
    exact ⟨rfl, rfl⟩
  | fields =>
    obtain ⟨_, rfl⟩ | ⟨_, _, _, _, rfl⟩ := validateFields_eq_ok_iff.1 h <;> exact ⟨rfl, rfl⟩
  | order =>
    obtain ⟨_, rfl⟩ | ⟨_, _, _, _, rfl⟩ := validateOrder_eq_ok_iff.1 h <;> exact ⟨rfl, rfl⟩
  | filter =>
    obtain ⟨_, rfl, _⟩ := exists_of_validateKeys h
    exact ⟨rfl, rfl⟩
  | body =>
    obtain ⟨_, rfl, _⟩ := exists_of_validateKeys h
    exact ⟨rfl, rfl⟩
  | relations =>
    cases h
    exact ⟨rfl, rfl⟩

/-- The page is what was read for it, within the bounds of a page. -/
structure ValidParams.PageSent (config : Config) (sent : OrderedMap ParamValue)
    (valid : ValidParams) : Prop where
  limit : ∀ value, sent.get? "limit" = some value → value.IsCount valid.limit ∧ 1 ≤ valid.limit ∧
    ∀ max, config.maxLimit = some max → valid.limit ≤ max
  offset : ∀ value, sent.get? "offset" = some value → value.IsCount valid.offset

/-- Once the page is what was read, it stays so. -/
theorem ValidParams.PageSent.validateCapability {c : Capability}
    (h : validateCapability config schema sent valid c = .ok valid')
    (hvalid : c ≠ .pagination → valid.PageSent config sent) : valid'.PageSent config sent := by
  by_cases hc : c = .pagination
  · subst hc
    obtain ⟨limit, offset, hlimit, _, hoffset, _, rfl⟩ := validatePagination_eq_ok_iff.1 h
    exact ⟨hlimit, hoffset⟩
  · obtain ⟨hlimit, hoffset⟩ := page_of_validateCapability hc h
    exact ⟨by rw [hlimit]; exact (hvalid hc).limit, by rw [hoffset]; exact (hvalid hc).offset⟩

/-- The page of a request that passes its checks was sent or configured; a size that is not the
configured one is within the bounds of a page. -/
theorem counts_of_validate (h : validate config schema method params = .ok valid) :
    schema.Counts params "limit" config.defaultLimit valid.limit ∧
      schema.Counts params "offset" config.defaultOffset valid.offset ∧
      (valid.limit = config.defaultLimit ∨
        1 ≤ valid.limit ∧ ∀ max, config.maxLimit = some max → valid.limit ≤ max) := by
  obtain ⟨_, sent, hsent, hrun⟩ := validate_eq_ok_iff.1 h
  have hentries := (canonicalParams_eq_ok_iff.1 hsent).2.2
  have hstanding {name : String} (hunsent : ∀ value, ¬ params.Sends name value) :
      valid.Standing config schema name :=
    foldlM_preserves (fun _ hc _ _ => .validateCapability ((Params.get?_eq_none_iff hentries).2
      hunsent) hc) .initial hrun
  by_cases hpages : schema.pagination = true
  · have hpage : valid.PageSent config sent :=
      foldlM_reaches (by simp [EndpointSchema.declared, hpages])
        (fun _ _ hstep => .validateCapability hstep fun hc => absurd rfl hc)
        (fun _ _ _ _ hvalid hstep => .validateCapability hstep fun _ => hvalid) hrun
    have hlimit : schema.Counts params "limit" config.defaultLimit valid.limit ∧
        (valid.limit = config.defaultLimit ∨
          1 ≤ valid.limit ∧ ∀ max, config.maxLimit = some max → valid.limit ≤ max) := by
      by_cases hsends : ∃ value, params.Sends "limit" value
      · obtain ⟨value, hvalue⟩ := hsends
        obtain ⟨hcount, hbounds⟩ := hpage.limit value ((Params.get?_iff_sends hentries).2 hvalue)
        exact ⟨.sent hpages hvalue hcount, .inr hbounds⟩
      · rw [not_exists] at hsends
        rw [(hstanding hsends).limit rfl]
        exact ⟨.configured fun _ => hsends, .inl rfl⟩
    have hoffset : schema.Counts params "offset" config.defaultOffset valid.offset := by
      by_cases hsends : ∃ value, params.Sends "offset" value
      · obtain ⟨value, hvalue⟩ := hsends
        exact .sent hpages hvalue (hpage.offset value ((Params.get?_iff_sends hentries).2 hvalue))
      · rw [not_exists] at hsends
        rw [(hstanding hsends).offset rfl]
        exact .configured fun _ => hsends
    exact ⟨hlimit.1, hoffset, hlimit.2⟩
  · have hpage : valid.limit = config.defaultLimit ∧ valid.offset = config.defaultOffset := by
      refine foldlM_preserves (P := fun valid => valid.limit = config.defaultLimit ∧
        valid.offset = config.defaultOffset) ?_ ⟨rfl, rfl⟩ hrun
      intro c hc valid valid' hvalid hstep
      have hne : c ≠ .pagination := by
        rintro rfl
        simp [EndpointSchema.declared, hpages] at hc
      obtain ⟨hlimit, hoffset⟩ := page_of_validateCapability hne hstep
      exact ⟨hlimit.trans hvalid.1, hoffset.trans hvalid.2⟩
    rw [hpage.1, hpage.2]
    exact ⟨.configured fun hon => absurd hon hpages, .configured fun hon => absurd hon hpages,
      .inl rfl⟩

namespace Endpoint

variable {e : Endpoint} {intent : QueryIntent}

/-- The page of a compiled request has at least one row and at most as many as the configuration
allows. Its counts are those that were sent, which the tables take, or the configured ones. So the
tables take the page if they take the configured one. -/
theorem page_of_compile (hcreate : create config schema = .ok e)
    (h : e.compile method params = .ok intent) :
    1 ≤ intent.pagination.limit ∧
    (∀ max, config.maxLimit = some max → intent.pagination.limit ≤ max) ∧
    schema.Counts params "limit" config.defaultLimit intent.pagination.limit ∧
    schema.Counts params "offset" config.defaultOffset intent.pagination.offset ∧
    ((⟨config.defaultLimit, config.defaultOffset⟩ : Page).check = .ok () →
      (⟨intent.pagination.limit, intent.pagination.offset⟩ : Page).check = .ok ()) := by
  obtain ⟨_, hcheck, _⟩ := bind_eq_ok_iff.1 hcreate
  obtain ⟨hone, hmax⟩ := Config.check_eq_ok_iff.1 hcheck
  obtain rfl := eq_of_create hcreate
  obtain ⟨valid, _, _, hvalid, _, _, rfl⟩ := compile_eq_ok_iff.1 h
  obtain ⟨hlimit, hoffset, hbounds⟩ := counts_of_validate hvalid
  have hbounds : 1 ≤ valid.limit ∧ ∀ max, config.maxLimit = some max → valid.limit ≤ max := by
    rcases hbounds with heq | hbounds
    · exact heq ▸ ⟨hone, hmax⟩
    · exact hbounds
  refine ⟨hbounds.1, hbounds.2, hlimit, hoffset, fun hconfigured => ?_⟩
  rw [Page.check_eq_ok_iff] at hconfigured ⊢
  constructor
  · by_contra hbeyond
    have heq := hlimit.eq_of_lt (Nat.lt_of_not_le hbeyond)
    exact hbeyond (heq ▸ hconfigured.1)
  · by_contra hbeyond
    have heq := hoffset.eq_of_lt (Nat.lt_of_not_le hbeyond)
    exact hbeyond (heq ▸ hconfigured.2)

/-- An endpoint that declares pages and nothing else. -/
def pages (config : Config) : Endpoint := ⟨config, { pagination := true }⟩

/-- The largest page, from the configured offset on. -/
theorem page_of_largest :
    ∃ intent, (pages { maxLimit := some largestCount, defaultOffset := 7 }).compile .get
        (.ofList [("Limit", .single " +9223372036854775807")]) = .ok intent ∧
      1 ≤ intent.pagination.limit ∧ intent.pagination.limit ≤ largestCount ∧
      intent.pagination.offset = 7 ∧
      (⟨intent.pagination.limit, intent.pagination.offset⟩ : Page).check = .ok () := by
  have hcompile : (pages { maxLimit := some largestCount, defaultOffset := 7 }).compile .get
      (.ofList [("Limit", .single " +9223372036854775807")]) =
        .ok { pagination := ⟨largestCount, 7⟩ } := rfl
  have hcreate : create { maxLimit := some largestCount, defaultOffset := 7 }
      { pagination := true } = .ok (pages { maxLimit := some largestCount, defaultOffset := 7 }) :=
    rfl
  obtain ⟨hone, hmax, _, _, hcheck⟩ := page_of_compile hcreate hcompile
  exact ⟨_, hcompile, hone, hmax _ rfl, rfl, hcheck rfl⟩

/-- A request that sends no page gets the configured one, which the tables may refuse: its size or
its offset can be `2 ^ 63`, although a count of that size is refused when it is sent. -/
theorem page_beyond_tables :
    (create { defaultLimit := 9223372036854775808 } { pagination := true } =
        .ok (pages { defaultLimit := 9223372036854775808 }) ∧
      (pages { defaultLimit := 9223372036854775808 }).compile .get ∅ =
        .ok { pagination := ⟨9223372036854775808, 0⟩ } ∧
      (⟨9223372036854775808, 0⟩ : Page).check = .error .countTooLarge) ∧
    create { defaultOffset := 9223372036854775808 } { pagination := true } =
        .ok (pages { defaultOffset := 9223372036854775808 }) ∧
      (pages { defaultOffset := 9223372036854775808 }).compile .get ∅ =
        .ok { pagination := ⟨20, 9223372036854775808⟩ } ∧
      (⟨20, 9223372036854775808⟩ : Page).check = .error .countTooLarge ∧
      readCount "offset" (.single "9223372036854775808") =
        .error (.invalidValue "offset" (.above largestCount)) :=
  ⟨⟨rfl, rfl, rfl⟩, rfl, rfl, rfl, rfl⟩

end Endpoint

end ParamQuery
