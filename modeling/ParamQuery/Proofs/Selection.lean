import ParamQuery.Proofs.Request.Checks

/-!
# Selections within an allow-list

What a request selects passes several stages: the text of its fields is checked against the list of
the endpoint, plain names of relations are told from columns, and the whole list stands in when
nothing is asked for. After all of them the selection stays within the list.

## Main definitions

* `FieldAllowList.Covers` — a selection stays within a list.

## Main statements

* `FieldAllowList.covers_promoteRelations` — telling relations from columns stays within the list.
* `Endpoint.covers_of_compile` — the selection of a compiled request stays within the list.
-/

namespace ParamQuery

/-- The columns and the relations of a selection, with the columns of each, are on the list. -/
structure FieldAllowList.Covers (allow : FieldAllowList) (s : FieldSelection) : Prop where
  columns : ∀ column ∈ s.select, column ∈ allow.columns
  relations : ∀ name fields, s.relations.get? name = some fields →
    allow.allowsRelation name fields = true

namespace FieldAllowList

variable {allow : FieldAllowList} {s : FieldSelection}

theorem Covers.mem_relations (h : allow.Covers s) {name : String}
    (hname : name ∈ s.relations.keys) : name ∈ allow.relations.keys := by
  obtain ⟨fields, hfields⟩ := Option.isSome_iff_exists.1 (OrderedMap.contains_iff.2 hname)
  have hallows := h.relations name fields hfields
  rw [← OrderedMap.contains_iff, OrderedMap.contains]
  unfold allowsRelation at hallows
  split at hallows
  · next hget => rw [hget]; rfl
  · cases hallows

/-- The whole list stays within itself. -/
theorem covers_toSelection (allow : FieldAllowList) : allow.Covers allow.toSelection := by
  constructor
  · intro column hcolumn
    exact hcolumn
  intro name fields hfields
  rw [allowsRelation, show allow.relations.get? name = some fields from hfields]
  simp

theorem Covers.addColumn (h : allow.Covers s) {column : String} (hcolumn : column ∈ allow.columns) :
    allow.Covers (s.addColumn column) := by
  refine ⟨?_, h.relations⟩
  intro other hother
  rcases FieldSelection.mem_addNew.1 hother with hother | rfl
  · exact h.columns other hother
  · exact hcolumn

theorem Covers.addRelation (h : allow.Covers s) {relation : String}
    (hrelation : allow.isRelation relation = true) : allow.Covers (s.addRelation relation) := by
  refine ⟨h.columns, ?_⟩
  intro name fields hfields
  rw [FieldSelection.addRelation, OrderedMap.get?_update] at hfields
  split at hfields
  · next hname =>
    subst hname
    cases hget : s.relations.get? relation with
    | none =>
      rw [hget] at hfields
      cases hfields
      obtain ⟨allowed, hallowed⟩ := Option.isSome_iff_exists.1 hrelation
      simp [allowsRelation, hallowed]
    | some fields' =>
      rw [hget] at hfields
      cases hfields
      exact h.relations relation fields' hget
  · exact h.relations name fields hfields

/-- Names on the list, each added as what it is, stay within the list. -/
theorem Covers.foldl_promote {columns : List String}
    (hcolumns : ∀ column ∈ columns,
      (allow.columns.contains column || allow.isRelation column) = true) (h : allow.Covers s) :
    allow.Covers (columns.foldl (fun promoted column =>
      if allow.isRelation column then promoted.addRelation column
      else promoted.addColumn column) s) := by
  induction columns generalizing s with
  | nil => exact h
  | cons column rest ih =>
    refine ih (fun other hother => hcolumns other (List.mem_cons_of_mem _ hother)) ?_
    dsimp only
    split
    · next hrelation => exact h.addRelation hrelation
    · next hrelation =>
      have hcolumn := hcolumns column List.mem_cons_self
      simp only [hrelation, Bool.or_false, List.contains_iff_mem] at hcolumn
      exact h.addColumn hcolumn

/-- Telling relations from columns stays within the list. -/
theorem covers_promoteRelations (h : allow.allows s = true) :
    allow.Covers (s.promoteRelations allow) := by
  rw [allows, Bool.and_eq_true, List.all_eq_true, List.all_eq_true] at h
  have hstart : allow.Covers { select := [], relations := s.relations } :=
    ⟨nofun, fun name fields hfields => h.2 _ (OrderedMap.get?_eq_some_iff.1 hfields)⟩
  exact hstart.foldl_promote h.1

end FieldAllowList

/-! ## Requests -/

/-- The fields recorded so far stay within a list. -/
def ValidParams.FieldsWithin (allow : FieldAllowList) (valid : ValidParams) : Prop :=
  ∀ text, valid.values.get? "fields" = some text → allow.allows (FieldSelection.parse text) = true

theorem ValidParams.FieldsWithin.of_get?_eq {allow : FieldAllowList} {valid valid' : ValidParams}
    (h : valid.FieldsWithin allow)
    (hget : valid'.values.get? "fields" = valid.values.get? "fields") :
    valid'.FieldsWithin allow :=
  fun text htext => h text (hget ▸ htext)

/-- Only the check of the fields writes them, and it writes what is on the list; a filter key called
like them would write them too. -/
theorem fieldsWithin_of_validateCapability {config : Config} {schema : EndpointSchema}
    {sent : OrderedMap ParamValue} {allow : FieldAllowList} {c : Capability}
    {valid valid' : ValidParams} (hallow : schema.fields = some allow)
    (hfilter : "fields" ∉ schema.filterKeys) (hc : c ≠ .body) (hvalid : valid.FieldsWithin allow)
    (h : validateCapability config schema sent valid c = .ok valid') :
    valid'.FieldsWithin allow := by
  have hother (hname : "fields" ∉ schema.writes c) : valid'.FieldsWithin allow :=
    hvalid.of_get?_eq (get?_of_validateCapability hname h)
  cases c with
  | fields =>
    rw [validateCapability, hallow, Option.getD_some] at h
    obtain ⟨_, rfl⟩ | ⟨value, _, hallows, _, rfl⟩ := validateFields_eq_ok_iff.1 h
    · exact hvalid
    · intro text htext
      simp only [OrderedMap.get?_insert, if_true, Option.some.injEq] at htext
      exact htext ▸ hallows
  | body => exact absurd rfl hc
  | filter => exact hother hfilter
  | pagination | search | order | relations => exact hother (by simp [EndpointSchema.writes])

/-- The selection of a compiled request stays within the list of its endpoint. -/
theorem Endpoint.covers_of_compile {e : Endpoint} {allow : FieldAllowList} {params : Params}
    {intent : QueryIntent} (hallow : e.schema.fields = some allow)
    (hfilter : "fields" ∉ e.schema.filterKeys) (h : e.compile .get params = .ok intent) :
    allow.Covers intent.fields := by
  obtain ⟨valid, _, _, hvalid, _, _, rfl⟩ := compile_eq_ok_iff.1 h
  obtain ⟨hsuits, sent, _, hvalid⟩ := validate_eq_ok_iff.1 hvalid
  have hwithin : valid.FieldsWithin allow := by
    refine foldlM_preserves ?_ ?_ hvalid
    · intro c hc valid valid'
      apply fieldsWithin_of_validateCapability hallow hfilter
      rintro rfl
      have hbody := hsuits .body hc
      exact absurd hbody (by decide)
    · intro text htext
      cases htext
  simp only [selectedFields, hallow]
  cases htext : valid.values.get? "fields" with
  | none => exact allow.covers_toSelection
  | some text =>
    dsimp only
    split
    · exact allow.covers_toSelection
    · exact FieldAllowList.covers_promoteRelations (hwithin text htext)

end ParamQuery
