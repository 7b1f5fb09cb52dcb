import ParamQuery.Proofs.Filter.Conditions
import ParamQuery.Proofs.Filter.Spelling
import ParamQuery.Proofs.Request.Recorded

/-!
# Where conditions come from

The conditions of a compiled request, and the values to write, come from what was sent for the
declared filter keys and columns. Two keys share a condition only if they are spellings of one key;
then the one that is declared last counts. Nothing else is lost, but not everything was sent: a
filter key that has the name of a parameter of another feature may take the value that stands for
that parameter.

## Main definitions

* `ValidParams.Conveys` — a name is read as a filter key and has a value.

## Main statements

* `text?_of_addConditions`, `exists_last_of_addConditions` — what a run over the names puts.
* `Endpoint.condition_of_sent` — a key that was sent has a condition.
* `Endpoint.supplied_of_compile` — conditions and values to write come from declared names.
-/

namespace ParamQuery

/-- A name is read as a filter key and has a value. -/
structure ValidParams.Conveys (valid : ValidParams) (name : String) (key : FilterKey)
    (text : String) : Prop where
  key : FilterKey.parse name = .ok key
  value : valid.values.get? name = some text

section

variable {valid : ValidParams} {names : List String} {filter filter' : FilterSet} {key : FilterKey}

/-- One name after the other puts the text that it has, if any. -/
theorem addConditions_cons_eq_ok_iff {name : String} :
    addConditions valid (name :: names) filter = .ok filter' ↔
      (valid.values.get? name = none ∧ addConditions valid names filter = .ok filter') ∨
      ∃ key text, valid.Conveys name key text ∧
        addConditions valid names (filter.insert key text) = .ok filter' := by
  rw [addConditions]
  cases hvalue : valid.values.get? name with
  | none =>
    simp only [true_and]
    refine (or_iff_left ?_).symm
    rintro ⟨key, text, hconveys, _⟩
    rw [hconveys.value] at hvalue
    cases hvalue
  | some text =>
    simp only [reduceCtorEq, false_and, false_or]
    cases hkey : FilterKey.parse name with
    | ok key =>
      constructor
      · intro h
        exact ⟨key, text, ⟨hkey, hvalue⟩, h⟩
      · rintro ⟨key', text', ⟨hkey', hvalue'⟩, h⟩
        obtain rfl : key = key' := Except.ok.inj (hkey.symm.trans hkey')
        obtain rfl : text = text' := Option.some.inj (hvalue.symm.trans hvalue')
        exact h
    | error fault =>
      constructor
      · rintro ⟨⟩
      · rintro ⟨key, _, hconveys, _⟩
        rw [hconveys.key] at hkey
        cases hkey

/-- After a run over names the text of a key is the one from before or that of one of the names. -/
theorem text?_of_addConditions (h : addConditions valid names filter = .ok filter') :
    filter'.text? key = filter.text? key ∨
      ∃ name ∈ names, ∃ text, valid.Conveys name key text ∧ filter'.text? key = some text := by
  induction names generalizing filter with
  | nil =>
    cases h
    exact .inl rfl
  | cons name rest ih =>
    obtain ⟨_, h⟩ | ⟨key', text, hconveys, h⟩ := addConditions_cons_eq_ok_iff.1 h
    · refine (ih h).imp_right ?_
      rintro ⟨other, hother, hconveys⟩
      exact ⟨other, List.mem_cons_of_mem name hother, hconveys⟩
    · rcases ih h with htext | ⟨other, hother, hconveys⟩
      · rw [FilterSet.text?_insert] at htext
        split at htext
        · next hkey =>
          subst hkey
          exact .inr ⟨name, List.mem_cons_self, text, hconveys, htext⟩
        · exact .inl htext
      · exact .inr ⟨other, List.mem_cons_of_mem name hother, hconveys⟩

/-- After a run over names that has met a name of a key, the text of the key is that of this name or
of a later one. -/
theorem exists_last_of_addConditions {name text : String} (hname : name ∈ names)
    (hconveys : valid.Conveys name key text)
    (h : addConditions valid names filter = .ok filter') :
    ∃ last text', valid.Conveys last key text' ∧ filter'.text? key = some text' ∧
      (last = name ∨ [name, last].Sublist names) := by
  induction names generalizing filter with
  | nil => cases hname
  | cons first rest ih =>
    have hlater (filter : FilterSet) (hname : name ∈ rest)
        (h : addConditions valid rest filter = .ok filter') :
        ∃ last text', valid.Conveys last key text' ∧ filter'.text? key = some text' ∧
          (last = name ∨ [name, last].Sublist (first :: rest)) := by
      obtain ⟨last, text', hlast, htext, hplace⟩ := ih hname h
      exact ⟨last, text', hlast, htext, hplace.imp_right (·.cons first)⟩
    obtain ⟨hnone, hrest⟩ | ⟨key', text', hfirst, hrest⟩ := addConditions_cons_eq_ok_iff.1 h
    · rcases List.mem_cons.1 hname with rfl | hname
      · rw [hconveys.value] at hnone
        cases hnone
      · exact hlater filter hname hrest
    · rcases List.mem_cons.1 hname with rfl | hname
      · obtain rfl : key' = key := Except.ok.inj (hfirst.key.symm.trans hconveys.key)
        rcases text?_of_addConditions hrest with hkept | ⟨last, hlast, text'', hlater, hput⟩
        · rw [FilterSet.text?_insert, if_pos rfl] at hkept
          exact ⟨name, text', hfirst, hkept, .inl rfl⟩
        · exact ⟨last, text'', hlater, hput,
            .inr (List.Sublist.cons_cons name (List.singleton_sublist.2 hlast))⟩
      · exact hlater _ hname hrest

end

namespace Endpoint

variable {e : Endpoint} {method : Method} {params : Params} {intent : QueryIntent}

/-- A declared filter key that was sent has a condition with the text that was sent, unless another
spelling of the key is declared after it and has a value; then it has a condition with that. -/
theorem condition_of_sent {name : String} {value : ParamValue} {key : FilterKey}
    (h : e.compile .get params = .ok intent) (hname : name ∈ e.schema.filterKeys)
    (hsent : params.Sends name value) (hkey : FilterKey.parse name = .ok key) :
    ∃ text, value = .single text ∧ ∃ last ∈ e.schema.filterKeys, ∃ text',
      FilterKey.parse last = .ok key ∧ e.schema.Supplies e.config params last text' ∧
      ⟨key.op, key.column, text'⟩ ∈ (intent.filter.buckets key).conditions ∧
      ((last = name ∧ text' = text) ∨
        [name, last].Sublist e.schema.filterKeys ∧
          (last = name ++ "_eq" ∨ name = last ++ "_eq")) := by
  obtain ⟨valid, filter, _, hvalid, hfilter, _, rfl⟩ := compile_eq_ok_iff.1 h
  obtain ⟨text, rfl, _, hvalue⟩ := recorded_of_sends hvalid (.inl hname) hsent
  obtain ⟨last, text', hlast, hput, hplace⟩ :=
    exists_last_of_addConditions hname ⟨hkey, hvalue⟩ hfilter
  have hmem : last ∈ e.schema.filterKeys := by
    rcases hplace with rfl | hplace
    · exact hname
    · exact hplace.subset (by simp)
  refine ⟨text, rfl, last, hmem, text', hlast.key,
    supplies_of_recorded hvalid (.inl hmem) hlast.value, FilterSet.mem_conditions_iff.2 hput, ?_⟩
  rcases FilterKey.spellings_of_parse hkey hlast.key with rfl | hspelling
  · exact .inl ⟨rfl, Option.some.inj (hlast.value.symm.trans hvalue)⟩
  · rcases hplace with rfl | hplace
    · exact .inl ⟨rfl, Option.some.inj (hlast.value.symm.trans hvalue)⟩
    · exact .inr ⟨hplace, hspelling⟩

/-- An endpoint with two spellings of one filter key. -/
def respelled : Endpoint := ⟨{}, { filter := some ["name", "name_eq"] }⟩

/-- The two spellings sent with different texts. -/
def respelledParams : Params := .ofList [("name", .single "anna"), ("nameEq", .single "bob")]

/-- The intent holds the text of the spelling that is declared last. -/
def respelledIntent : QueryIntent where
  filter := { base := FilterBuckets.insert {} .eq "name" "bob" }
  pagination := ⟨20, 0⟩

theorem condition_of_respelled :
    respelled.compile .get respelledParams = .ok respelledIntent ∧
      ∃ text, ParamValue.single "anna" = .single text ∧ ∃ last ∈ ["name", "name_eq"], ∃ text',
        FilterKey.parse last = .ok (.base "name" .eq) ∧
        respelled.schema.Supplies respelled.config respelledParams last text' ∧
        ⟨.eq, "name", text'⟩ ∈ (respelledIntent.filter.buckets (.base "name" .eq)).conditions ∧
        ((last = "name" ∧ text' = text) ∨
          ["name", last].Sublist ["name", "name_eq"] ∧
            (last = "name" ++ "_eq" ∨ "name" = last ++ "_eq")) := by
  have hcompile : respelled.compile .get respelledParams = .ok respelledIntent := rfl
  exact ⟨hcompile, condition_of_sent hcompile List.mem_cons_self ⟨"name", rfl, by decide, rfl⟩ rfl⟩

/-- A key that was sent may have no condition with its text. -/
theorem condition_overwritten :
    create {} respelled.schema = .ok respelled ∧
      respelled.compile .get respelledParams = .ok respelledIntent ∧
      "name" ∈ respelled.schema.filterKeys ∧ respelledParams.Sends "name" (.single "anna") ∧
      FilterKey.parse "name" = .ok (.base "name" .eq) ∧
      ⟨.eq, "name", "anna"⟩ ∉
        (respelledIntent.filter.buckets (.base "name" .eq)).conditions := by
  refine ⟨rfl, rfl, List.mem_cons_self, ⟨"name", rfl, by decide, rfl⟩, rfl, ?_⟩
  decide

/-- Where columns are written no feature has a parameter with a standing value. -/
theorem standing?_eq_none_of_body (hbody : .body ∈ e.schema.declared)
    (hsuits : ∀ c ∈ e.schema.declared, c.allows method = true) (name : String) :
    e.schema.standing? e.config name = none := by
  have hpagination : e.schema.pagination = false := by
    by_contra hdeclared
    rw [Bool.not_eq_false] at hdeclared
    have hmem : .pagination ∈ e.schema.declared := by simp [EndpointSchema.declared, hdeclared]
    exact absurd (allows_write_of_body hbody hsuits hmem) (by decide)
  have hsearch : e.schema.search.isSome = false := by
    by_contra hdeclared
    rw [Bool.not_eq_false] at hdeclared
    have hmem : .search ∈ e.schema.declared := by simp [EndpointSchema.declared, hdeclared]
    exact absurd (allows_write_of_body hbody hsuits hmem) (by decide)
  simp [EndpointSchema.standing?, hpagination, hsearch]

/-- Every condition of a compiled request comes from a declared filter key that was sent with its
text, or that has the name of a parameter that was not sent and for which the text stands. Every
value to write was sent as it is for a declared column. Rules admit what was sent. -/
theorem supplied_of_compile (h : e.compile method params = .ok intent) :
    (∀ (key : FilterKey) (text : String),
      ⟨key.op, key.column, text⟩ ∈ (intent.filter.buckets key).conditions →
        ∃ name ∈ e.schema.filterKeys, FilterKey.parse name = .ok key ∧
          e.schema.Supplies e.config params name text) ∧
    ∀ column text, intent.body.get? column = some text →
      column ∈ e.schema.bodyColumns ∧ params.Sends column (.single text) ∧
        (e.schema.rule column).Admits text := by
  obtain ⟨valid, filter, _, hvalid, hfilter, _, rfl⟩ := compile_eq_ok_iff.1 h
  constructor
  · intro key text htext
    rw [FilterSet.mem_conditions_iff] at htext
    rcases text?_of_addConditions hfilter with hnone | ⟨name, hname, text', hconveys, hput⟩
    · rw [htext, FilterSet.text?_empty] at hnone
      cases hnone
    · obtain rfl : text = text' := Option.some.inj (htext.symm.trans hput)
      exact ⟨name, hname, hconveys.key, supplies_of_recorded hvalid (.inl hname) hconveys.value⟩
  · intro column text htext
    rw [requestedBody, OrderedMap.get?_eq_some_iff] at htext
    have hentry := OrderedMap.mem_of_mem_ofList htext
    simp only [List.mem_filterMap, Option.map_eq_some_iff, Prod.mk.injEq] at hentry
    obtain ⟨_, hcolumn, _, hvalue, rfl, rfl⟩ := hentry
    refine ⟨hcolumn, ?_⟩
    cases supplies_of_recorded hvalid (.inr hcolumn) hvalue with
    | sent hsent hadmits => exact ⟨hsent, hadmits⟩
    | standing _ hstanding =>
      have hsuits := (validate_eq_ok_iff.1 hvalid).1
      have hdeclared : .body ∈ e.schema.declared := by
        cases hbody : e.schema.body with
        | none => simp [EndpointSchema.bodyColumns, hbody] at hcolumn
        | some columns => simp [EndpointSchema.declared, hbody]
      rw [standing?_eq_none_of_body hdeclared hsuits] at hstanding
      cases hstanding

/-- An endpoint with filter keys called like parameters of the search and of the page. -/
def namesakes : Endpoint where
  config := {}
  schema := {
    pagination := true
    search := some ["name"]
    filter := some ["q", "limit", "status"]
    rules := .ofList [("q", { kind := .integer })] }

/-- The intent of a request for a status alone. -/
def namesakesIntent : QueryIntent where
  filter := { base :=
    ((FilterBuckets.insert {} .eq "q" "").insert .eq "limit" "20").insert .eq "status" "open" }
  search := ⟨"", ["name"]⟩
  pagination := ⟨20, 0⟩

theorem supplied_of_namesakes :
    namesakes.compile .get (.ofList [("status", .single "open")]) = .ok namesakesIntent ∧
    (∀ (key : FilterKey) (text : String),
      ⟨key.op, key.column, text⟩ ∈ (namesakesIntent.filter.buckets key).conditions →
        ∃ name ∈ namesakes.schema.filterKeys, FilterKey.parse name = .ok key ∧
          namesakes.schema.Supplies namesakes.config (.ofList [("status", .single "open")])
            name text) ∧
    ∀ column text, namesakesIntent.body.get? column = some text →
      column ∈ namesakes.schema.bodyColumns ∧
        Params.Sends (.ofList [("status", .single "open")]) column (.single text) ∧
        (namesakes.schema.rule column).Admits text := by
  have hcompile : namesakes.compile .get (.ofList [("status", .single "open")]) =
      .ok namesakesIntent := rfl
  exact ⟨hcompile, supplied_of_compile hcompile⟩

/-- A filter key that was not sent may have a condition, with a text that its rule refuses. -/
theorem condition_invented :
    create {} namesakes.schema = .ok namesakes ∧
      namesakes.compile .get (.ofList [("status", .single "open")]) = .ok namesakesIntent ∧
      (∀ value, ¬ Params.Sends (.ofList [("status", .single "open")]) "q" value) ∧
      ⟨.eq, "q", ""⟩ ∈ namesakesIntent.filter.base.conditions ∧
      ¬ (namesakes.schema.rule "q").Admits "" := by
  refine ⟨rfl, rfl, ?_, by decide, ?_⟩
  · intro value hsent
    rw [← Params.mem_canonicalEntries_iff_sends] at hsent
    have hentries : canonicalEntries
        (OrderedMap.ofList [("status", ParamValue.single "open")]).entries =
          [("status", .single "open")] := rfl
    rw [hentries] at hsent
    simp at hsent
  · rw [← ValueRule.fault?_eq_none_iff]
    decide

end Endpoint

end ParamQuery
