import ParamQuery.Proofs.Read.Conversion
import ParamQuery.Proofs.Request.Provenance
import ParamQuery.Proofs.WholeNumber

/-!
# Filters on columns of whole numbers

Where all filter keys ask for whole numbers, and name columns of whole numbers, every condition of a
compiled request compares such a column with a number. The rule takes 64 bits and passes over any
white space; the column takes its own range and passes over that of ASCII, and it gets the text as
it was sent. Those texts in between, and those that were not sent and stand for a parameter of the
same name, are all that a read can fail for, keys of relations aside.

## Main definitions

* `EndpointSchema.FiltersNumbers` — all filter keys are whole numbers, for columns of them.
* `EndpointSchema.SuppliesNumber` — where the text of such a key comes from, and when it is read.

## Main statements

* `Endpoint.numbers_of_compile` — the conditions of a compiled request, and what reads fail for.
-/

namespace ParamQuery

open Text

namespace EndpointSchema

/-- All filter keys have a rule that asks for whole numbers, and name columns of a table that hold
whole numbers. -/
def FiltersNumbers (schema : EndpointSchema) (t : Table) : Prop :=
  ∀ name ∈ schema.filterKeys, (schema.rule name).kind = .integer ∧
    ∃ column op index found range, FilterKey.parse name = .ok (.base column op) ∧
      t.column column = .ok (index, found) ∧ found.type.wholeNumbers? = some range

/-- Where a text comes from that a column of whole numbers is compared with, and when the column
reads it. -/
inductive SuppliesNumber (schema : EndpointSchema) (config : Config) (params : Params)
    (name text : String) (type : ColumnType) : Prop where
  /-- It was sent and is a whole number of 64 bits, white space around it aside. The column reads
  it, as this number, if it holds the number and the white space is that of ASCII. -/
  | sent {range : IntegerType} {n : Int} : params.Sends name (.single text) →
    type.wholeNumbers? = some range → WritesInteger (trim text.toList) n →
    IntegerType.int64.holds n = true →
    (∀ cell, type.read? text = some cell ↔
      cell = .integer n ∧ Cast.AsciiSpaced text.toList ∧ range.holds n = true) →
    SuppliesNumber schema config params name text type
  /-- It was not sent, and stands for a parameter of that name. -/
  | standing : (∀ value, ¬ params.Sends name value) → schema.standing? config name = some text →
    SuppliesNumber schema config params name text type

/-- A text under a rule for whole numbers is one, if it was sent. -/
theorem Supplies.number {schema : EndpointSchema} {config : Config} {params : Params}
    {name text : String} {type : ColumnType} {range : IntegerType}
    (h : schema.Supplies config params name text) (hrule : (schema.rule name).kind = .integer)
    (htype : type.wholeNumbers? = some range) :
    schema.SuppliesNumber config params name text type := by
  cases h with
  | sent hsent hadmits =>
    obtain ⟨n, hwrites, hleast, hgreatest⟩ := hadmits.integer hrule
    have hn : IntegerType.int64.holds n = true := IntegerType.holds_iff.2 ⟨hleast, hgreatest⟩
    exact .sent hsent htype hwrites hn fun _ => ColumnType.read?_iff_of_writesInteger htype hwrites hn
  | standing hunsent hstanding => exact .standing hunsent hstanding

end EndpointSchema

namespace Endpoint

variable {e : Endpoint} {method : Method} {params : Params} {intent : QueryIntent} {t : Table}

/-- A condition of a compiled request belongs to a filter key that has a text. -/
theorem exists_key_of_condition (h : e.compile method params = .ok intent) (key : FilterKey)
    {text : String} (hmem : ⟨key.op, key.column, text⟩ ∈ (intent.filter.buckets key).conditions) :
    ∃ name ∈ e.schema.filterKeys, FilterKey.parse name = .ok key ∧
      e.schema.Supplies e.config params name text := by
  obtain ⟨valid, filter, _, hvalid, hfilter, _, rfl⟩ := compile_eq_ok_iff.1 h
  have htext := FilterSet.mem_conditions_iff.1 hmem
  obtain hnone | ⟨name, hname, text', hconveys, hput⟩ := text?_of_addConditions hfilter
  · rw [htext, FilterSet.text?_empty] at hnone
    cases hnone
  · obtain rfl : text = text' := Option.some.inj (htext.symm.trans hput)
    exact ⟨name, hname, hconveys.key, supplies_of_recorded hvalid (.inl hname) hconveys.value⟩

/-- No condition is put on the rows of relations. -/
theorem relation_conditions_eq_nil (h : e.compile method params = .ok intent)
    (hkeys : e.schema.FiltersNumbers t) (relation : String) :
    ((intent.filter.relation? relation).getD {}).conditions = [] := by
  refine List.eq_nil_iff_forall_not_mem.2 fun c hc => ?_
  obtain ⟨name, hname, hkey, _⟩ :=
    exists_key_of_condition h (.related relation c.column c.op) hc
  obtain ⟨_, column, op, _, _, _, hparse, _⟩ := hkeys name hname
  cases hkey.symm.trans hparse

/-- Only conditions of the request, and keys of relations, bind texts that a column cannot read. -/
theorem rejects_of_read (h : e.compile method params = .ok intent)
    (hkeys : e.schema.FiltersNumbers t) {m : Model} {caps : Capabilities} {s : Session}
    {text : String} (ht : s.database.table m.table = .ok t)
    (hread : (Action.read m intent caps s).1 = .error (.engine (.unreadableText text))) :
    (∃ c ∈ intent.filter.base.conditions, Condition.Rejects t text (.compare c)) ∨
      ∃ wanted, wantedRelations m intent.fields caps = .ok wanted ∧
        ∃ w ∈ wanted, ∃ page, text ∈ pageKeys w.relation.parentColumn page := by
  obtain ⟨wanted, hwanted, ⟨t', ht', c, hc, hrejects⟩ | ⟨w, hw, page, t', _, c, hc, hrejects⟩⟩ :=
    Action.rejects_of_read hread
  · obtain rfl : t = t' := Except.ok.inj (ht.symm.trans ht')
    refine .inl ?_
    rcases List.mem_append.1 hc with hc | hc
    · -- a search binds a pattern, which is compared with the text of a cell
      split at hc
      · unfold searchConditions at hc
        split at hc
        · cases hc
        · split at hc
          · cases hc
          · rw [List.mem_singleton] at hc
            subst hc
            cases hrejects
      · cases hc
    · split at hc
      · obtain ⟨comparison, hmem, rfl⟩ := List.mem_map.1 hc
        exact ⟨comparison, hmem, hrejects⟩
      · cases hc
  · refine .inr ⟨wanted, hwanted, w, hw, page, ?_⟩
    rcases List.mem_cons.1 hc with rfl | hc
    · cases hrejects with
      | oneOf hmem => exact hmem
    · have hnone := relation_conditions_eq_nil h hkeys w.relation.name
      unfold Action.relationFilter at hc
      split at hc
      · cases hrelation : intent.filter.relation? w.relation.name with
        | none => simp [hrelation] at hc
        | some buckets =>
          rw [hrelation, Option.getD_some] at hnone
          simp [hrelation, filterConditions, hnone] at hc
      · cases hc

/-- Every condition of a compiled request compares a column of whole numbers with a number that was
sent, or with a text that stands for a parameter of the same name. A read fails for no other text
than those of these conditions that the column does not read, and keys of relations. -/
theorem numbers_of_compile (h : e.compile method params = .ok intent)
    (hkeys : e.schema.FiltersNumbers t) :
    (∀ c ∈ intent.filter.base.conditions, ∃ name ∈ e.schema.filterKeys,
      FilterKey.parse name = .ok (.base c.column c.op) ∧
      ∃ index column, t.column c.column = .ok (index, column) ∧
        e.schema.SuppliesNumber e.config params name c.value column.type) ∧
    ∀ (m : Model) (caps : Capabilities) (s : Session) (text : String),
      s.database.table m.table = .ok t →
      (Action.read m intent caps s).1 = .error (.engine (.unreadableText text)) →
        (∃ c ∈ intent.filter.base.conditions, Condition.Rejects t text (.compare c)) ∨
          ∃ wanted, wantedRelations m intent.fields caps = .ok wanted ∧
            ∃ w ∈ wanted, ∃ page, text ∈ pageKeys w.relation.parentColumn page := by
  refine ⟨fun c hc => ?_, fun m caps s text => rejects_of_read h hkeys⟩
  obtain ⟨name, hname, hparse, hsupplies⟩ :=
    exists_key_of_condition h (.base c.column c.op) hc
  obtain ⟨hrule, _, _, index, column, range, hparse', hcolumn, htype⟩ := hkeys name hname
  cases hparse.symm.trans hparse'
  exact ⟨name, hname, hparse, index, column, hcolumn, hsupplies.number hrule htype⟩

/-- Items with a number of some type. -/
def items (type : ColumnType) : Table where
  name := "items"
  columns := [⟨"id", .integer⟩, ⟨"q", type⟩]
  key := some "id"
  rows := [[.integer 1, .integer 5]]

/-- An endpoint that filters items by their number, and searches them if asked to. -/
def itemsByNumber (search : Option (List String)) : Endpoint where
  config := {}
  schema := {
    search := search
    filter := some ["q"]
    rules := .ofList [("q", { kind := .integer })] }

theorem filtersNumbers_items (type : ColumnType) (htype : type.wholeNumbers?.isSome = true)
    (search : Option (List String)) :
    (itemsByNumber search).schema.FiltersNumbers (items type) := by
  intro name hname
  obtain rfl := List.mem_singleton.1 hname
  obtain ⟨range, htype⟩ := Option.isSome_iff_exists.1 htype
  have hcolumn : (items type).column "q" = .ok (1, ⟨"q", type⟩) := by
    cases type <;> rfl
  exact ⟨rfl, "q", .eq, 1, ⟨"q", type⟩, range, rfl, hcolumn, htype⟩

/-- The intent of a request for the items with a number. -/
def itemsIntent (number : String) (search : List String) : QueryIntent where
  filter := { base := FilterBuckets.insert {} .eq "q" number }
  search := ⟨"", search⟩
  pagination := ⟨20, 0⟩

/-- A number of 64 bits passes the rule, and the read fails for it in a column of 32 bits. -/
theorem numbers_of_items :
    (itemsByNumber none).compile .get (.ofList [("q", .single "3000000000")]) =
        .ok (itemsIntent "3000000000" []) ∧
      (∀ c ∈ (itemsIntent "3000000000" []).filter.base.conditions,
        ∃ name ∈ (itemsByNumber none).schema.filterKeys,
          FilterKey.parse name = .ok (.base c.column c.op) ∧
          ∃ index column, (items .integer).column c.column = .ok (index, column) ∧
            (itemsByNumber none).schema.SuppliesNumber (itemsByNumber none).config
              (.ofList [("q", .single "3000000000")]) name c.value column.type) ∧
      ((∃ c ∈ (itemsIntent "3000000000" []).filter.base.conditions,
        Condition.Rejects (items .integer) "3000000000" (.compare c)) ∨
        ∃ wanted, wantedRelations { table := "items" } {} (itemsByNumber none).schema.capabilities =
          .ok wanted ∧ ∃ w ∈ wanted, ∃ page, "3000000000" ∈ pageKeys w.relation.parentColumn page)
    := by
  have hcompile : (itemsByNumber none).compile .get (.ofList [("q", .single "3000000000")]) =
      .ok (itemsIntent "3000000000" []) := rfl
  obtain ⟨hconditions, hread⟩ := numbers_of_compile hcompile (filtersNumbers_items .integer rfl none)
  exact ⟨hcompile, hconditions, hread { table := "items" } (itemsByNumber none).schema.capabilities
    { database := { tables := [items .integer] } } "3000000000" rfl rfl⟩

/-- Reads of a column of whole numbers fail for a number that is sent and out of its range, for a
number with white space that is not that of ASCII, and for the empty text if the filter key has the
name of the parameter to search for, and nothing is sent. -/
theorem number_unread :
    (create {} (itemsByNumber none).schema = .ok (itemsByNumber none) ∧
      (itemsByNumber none).schema.FiltersNumbers (items .integer) ∧
      (itemsByNumber none).compile .get (.ofList [("q", .single "3000000000")]) =
        .ok (itemsIntent "3000000000" []) ∧
      (Action.read { table := "items" } (itemsIntent "3000000000" [])
        (itemsByNumber none).schema.capabilities
        { database := { tables := [items .integer] } }).1 =
          .error (.engine (.unreadableText "3000000000"))) ∧
    ((itemsByNumber none).schema.FiltersNumbers (items .bigint) ∧
      (itemsByNumber none).compile .get (.ofList [("q", .single "\u00a05")]) =
        .ok (itemsIntent "\u00a05" []) ∧
      (Action.read { table := "items" } (itemsIntent "\u00a05" [])
        (itemsByNumber none).schema.capabilities
        { database := { tables := [items .bigint] } }).1 =
          .error (.engine (.unreadableText "\u00a05"))) ∧
    create {} (itemsByNumber (some ["q"])).schema = .ok (itemsByNumber (some ["q"])) ∧
      (itemsByNumber (some ["q"])).schema.FiltersNumbers (items .integer) ∧
      (itemsByNumber (some ["q"])).compile .get ∅ = .ok (itemsIntent "" ["q"]) ∧
      (Action.read { table := "items" } (itemsIntent "" ["q"])
        (itemsByNumber (some ["q"])).schema.capabilities
        { database := { tables := [items .integer] } }).1 =
          .error (.engine (.unreadableText "")) :=
  ⟨⟨rfl, filtersNumbers_items .integer rfl none, rfl, rfl⟩,
    ⟨filtersNumbers_items .bigint rfl none, rfl, rfl⟩, rfl,
    filtersNumbers_items .integer rfl (some ["q"]), rfl, rfl⟩

end Endpoint

end ParamQuery
