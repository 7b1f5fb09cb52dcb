import ParamQuery.Proofs.Read.Columns

/-!
# Conditions on relations

Conditions on a relation decide about the rows that are nested under its name and about nothing
else. The statement for the page does not have them, and the loading of relations puts the same
names into every row, whatever it finds.

## Main definitions

* `QueryIntent.filtering` — an intent with other conditions on relations.
* `Entity.SameShape` — objects with the same names in the same order, and the same values except
  under some names.
* `Wanted.Shows` — a nested value shows a row of the related table.
* `Envelope.Scoped` — all rows nested in an envelope satisfy the conditions on their relations.

## Main statements

* `Wanted.sameShape_of_answer_attachAll` — relations that are loaded under two filters.
* `Wanted.satisfies_of_loaded` — the rows that are loaded satisfy the conditions.
* `Action.scoped_of_read` — reads under two sets of conditions on relations.
-/

namespace ParamQuery

/-- The same intent with other conditions on relations. -/
def QueryIntent.filtering (intent : QueryIntent) (relations : OrderedMap FilterBuckets) :
    QueryIntent :=
  { intent with filter := { intent.filter with relations := relations } }

/-- The names that a read nests related rows under. -/
def QueryIntent.nestedNames (intent : QueryIntent) (caps : Capabilities) : List String :=
  if caps.contains .relations then intent.fields.relations.keys else []

/-! ## Two filters -/

/-- Two objects have the same names in the same order, and the same values except under some
names. -/
structure Entity.SameShape (names : List String) (a b : Entity) : Prop where
  keys : OrderedMap.keys b = OrderedMap.keys a
  others : SameBut names a b

theorem Entity.Grows.sameShape {names : List String} {entity a b : Entity}
    (ha : Grows names entity a) (hb : Grows names entity b) : SameShape names a b := by
  refine ⟨hb.keys.trans ha.keys.symm, ?_⟩
  intro name hname
  exact (hb.others name hname).trans (ha.others name hname).symm

theorem Entity.SameShape.withoutHelpers {names : List String} {a b : Entity}
    (h : SameShape names a b) (helpers : List String) :
    SameShape names (Action.withoutHelpers helpers a) (Action.withoutHelpers helpers b) := by
  constructor
  · rw [Action.keys_withoutHelpers, Action.keys_withoutHelpers, h.keys]
  · intro name hname
    rw [Action.get?_withoutHelpers, Action.get?_withoutHelpers, h.others name hname]

/-- No two relations that are loaded have one name. -/
theorem eq_of_name_eq {m : Model} {selection : FieldSelection} {caps : Capabilities}
    {wanted : List Wanted} (h : wantedRelations m selection caps = .ok wanted) {w w' : Wanted}
    (hw : w ∈ wanted) (hw' : w' ∈ wanted) (hname : w.relation.name = w'.relation.name) :
    w = w' := by
  have hnodup : (wanted.map fun w => w.relation.name).Nodup := by
    rw [map_name_of_wantedRelations h]
    split
    · exact selection.relations.nodup
    · exact List.nodup_nil
  exact List.inj_on_of_nodup_map hnodup hw hw' hname

namespace Wanted

variable {ws : List Wanted} {page : List Entity} {db : Database}

/-- Under two filters the same names are added to every row of a page, and all other values stay. -/
theorem sameShape_of_answer_attachAll {filter filter' : Wanted → Option FilterBuckets}
    {result result' : List Entity} (h : (attachAll filter ws page).answer db = .ok result)
    (h' : (attachAll filter' ws page).answer db = .ok result') :
    List.Forall₂ (Entity.SameShape (ws.map fun w => w.relation.name)) result result' := by
  refine (forall₂_of_common (grows_of_answer_attachAll h) (grows_of_answer_attachAll h')).imp ?_
  intro a b hgrows
  obtain ⟨entity, ha, hb⟩ := hgrows
  exact ha.sameShape hb

end Wanted

/-! ## Nested rows -/

/-- The rows that a nested value holds. -/
def Json.nestedRows : Json → List Json
  | .null => []
  | .array items => items
  | row => [row]

namespace Wanted

variable {w : Wanted} {filter : Option FilterBuckets} {page rows : List Entity} {db : Database}

/-- A nested value shows a row of the related table: it has the columns asked for, or all. -/
def Shows (w : Wanted) (t : Table) (row : Row) (value : Json) : Prop :=
  ∃ columns, (w.query none []).columns.mapM t.column = .ok columns ∧
    value = .object (w.stripped (Record.entity (t.project columns row))).entries

theorem mem_nestedRows_nested {related : List Entity} {value : Json}
    (h : value ∈ (w.nested related).nestedRows) :
    ∃ entity ∈ related, value = .object entity.entries := by
  unfold nested at h
  cases hkind : w.relation.kind with
  | hasMany => simpa [hkind, Json.nestedRows, eq_comm] using h
  | belongsTo =>
    cases related with
    | nil => simp [hkind, Json.ofOption, Json.nestedRows] at h
    | cons first rest =>
      refine ⟨first, List.mem_cons_self, ?_⟩
      simpa [hkind, Json.ofOption, Json.nestedRows] using h

/-- What is nested for a key are rows of the related table that satisfy the conditions. -/
theorem satisfies_of_loaded (h : (w.loaded filter page).answer db = .ok rows) {key : Option String}
    {value : Json}
    (hvalue : value ∈ (w.nested ((key.bind (w.groupRows rows).get?).getD [])).nestedRows) :
    ∃ t row, db.table w.relation.table = .ok t ∧ row ∈ t.rows ∧ w.Shows t row value ∧
      filter.all (fun buckets => buckets.holds t row) = true := by
  obtain ⟨entity, hentity, rfl⟩ := mem_nestedRows_nested hvalue
  obtain ⟨text, rfl⟩ : ∃ text, key = some text := by
    cases key with
    | none => simp at hentity
    | some text => exact ⟨text, rfl⟩
  rw [Option.bind_some, getD_get?_groupRows] at hentity
  obtain ⟨loaded, hloaded, rfl⟩ := List.mem_map.1 hentity
  obtain ⟨t, columns, row, ht, hcolumns, hrow, rfl, hholds⟩ :=
    exists_row_of_loaded h (List.mem_of_mem_filter hloaded)
  refine ⟨t, row, ht, hrow, ⟨columns, hcolumns, rfl⟩, ?_⟩
  cases filter with
  | none => rfl
  | some buckets =>
    rw [query, List.all_cons, Bool.and_eq_true] at hholds
    exact (all_holds_filterConditions buckets t row).symm.trans hholds.2

end Wanted

/-- Every row that is nested in an envelope under the name of a relation is a row of the related
table that satisfies all conditions of the intent on this relation. -/
def Envelope.Scoped (e : Envelope) (m : Model) (intent : QueryIntent) (caps : Capabilities)
    (db : Database) : Prop :=
  ∀ wanted, wantedRelations m intent.fields caps = .ok wanted → ∀ w ∈ wanted,
    ∀ entity ∈ e.collection, ∀ nested, entity.get? w.relation.name = some nested →
      ∀ value ∈ nested.nestedRows, ∃ t row, db.table w.relation.table = .ok t ∧ row ∈ t.rows ∧
        w.Shows t row value ∧
        ((intent.filter.relation? w.relation.name).getD {}).holds t row = true

/-! ## Reads -/

namespace Action

variable {m : Model} {intent : QueryIntent} {caps : Capabilities} {e e' : Envelope}

/-- A read with conditions nests only rows that satisfy those on their relation. -/
theorem scoped_of_answer {db : Database} (hcaps : caps.contains .filter = true)
    (h : (read m intent caps).answer db = .ok e) : e.Scoped m intent caps db := by
  intro wanted hwanted w hw entity hentity nested hnested value hvalue
  obtain ⟨wanted', t, columns, sorts, rows, n, page, hwanted', _, _, hpage, rfl⟩ :=
    answer_read_iff.1 h
  obtain rfl : wanted = wanted' := Except.ok.inj (hwanted.symm.trans hwanted')
  obtain ⟨before, hbefore, rfl⟩ := List.mem_map.1 hentity
  obtain ⟨w', hw', hname, _, loaded, key, hloaded, hget⟩ :=
    Wanted.exists_nested_of_answer_attachAll hpage hbefore ⟨w, hw, rfl⟩
  obtain rfl := eq_of_name_eq hwanted hw' hw hname
  rw [get?_withoutHelpers] at hnested
  split at hnested
  · cases hnested
  · cases hget.symm.trans hnested
    obtain ⟨t, row, ht, hrow, hshows, hholds⟩ := Wanted.satisfies_of_loaded hloaded hvalue
    refine ⟨t, row, ht, hrow, hshows, ?_⟩
    rw [relationFilter, if_pos hcaps] at hholds
    cases hfilter : intent.filter.relation? w'.relation.name with
    | none => rfl
    | some buckets => simpa [hfilter] using hholds

/-- Two reads that differ in the conditions on relations alone have the same total, limit and
offset, and as many rows. Position by position these have the same names in the same order and the
same values, except under the names of the relations asked for. What stands there are rows that
satisfy all conditions of their own read on their relation, if conditions are switched on. -/
theorem scoped_of_read {s : Session} {relations : OrderedMap FilterBuckets}
    (h : (read m intent caps s).1 = .ok e)
    (h' : (read m (intent.filtering relations) caps s).1 = .ok e') :
    (e'.total = e.total ∧ e'.limit = e.limit ∧ e'.offset = e.offset ∧
      List.Forall₂ (Entity.SameShape (intent.nestedNames caps)) e.collection e'.collection) ∧
    (caps.contains .filter = true → e.Scoped m intent caps s.database ∧
      e'.Scoped m (intent.filtering relations) caps s.database) := by
  rw [(reads_read m intent caps s).1] at h
  rw [(reads_read m _ caps s).1] at h'
  refine ⟨?_, fun hcaps => ⟨scoped_of_answer hcaps h, scoped_of_answer hcaps h'⟩⟩
  obtain ⟨wanted, t, columns, sorts, rows, n, page, hwanted, hfinds, hn, hpage, rfl⟩ :=
    answer_read_iff.1 h
  obtain ⟨wanted', t', columns', sorts', rows', n', page', hwanted', hfinds', hn', hpage', rfl⟩ :=
    answer_read_iff.1 h'
  -- the relations and the question for the page are the same, and so are the rows found
  obtain rfl : wanted = wanted' := Except.ok.inj (hwanted.symm.trans hwanted')
  obtain ⟨rfl, rfl, rfl, rfl⟩ := hfinds.unique hfinds'
  obtain rfl : n = n' := Except.ok.inj (hn.symm.trans hn')
  refine ⟨rfl, rfl, rfl, ?_⟩
  have hshape := Wanted.sameShape_of_answer_attachAll hpage hpage'
  rw [map_name_of_wantedRelations hwanted] at hshape
  simp only [readEnvelope, List.forall₂_map_left_iff, List.forall₂_map_right_iff]
  apply hshape.imp
  intro a b hab
  exact hab.withoutHelpers _

/-- Two people and their three orders. -/
def buyers : Session where
  database := { tables := [
    { name := "people"
      columns := [⟨"id", .integer⟩, ⟨"name", .varchar⟩]
      key := some "id"
      rows := [[.integer 1, .text "Anna"], [.integer 2, .text "Bob"]] },
    Wanted.orders "user_id"] }

/-- People with a relation to their orders. -/
def buyerModel : Model where
  table := "people"
  relations := [.hasMany "orders" "orders" "user_id"]

/-- The names of people, and the totals above thirty of their orders. -/
def largeOrders : QueryIntent where
  fields := ⟨["name"], .ofList [("orders", ["total"])]⟩
  filter := { relations := .ofList [("orders", FilterBuckets.insert {} .gt "total" "30")] }
  pagination := ⟨20, 0⟩

/-- Both people are found with the condition and without it, under which one order more is
nested. -/
theorem scoped_of_buyers :
    ∃ e e', (read buyerModel largeOrders .read buyers).1 = .ok e ∧
      (read buyerModel (largeOrders.filtering ∅) .read buyers).1 = .ok e' ∧
      e'.collection ≠ e.collection ∧ e'.total = e.total ∧
      List.Forall₂ (Entity.SameShape ["orders"]) e.collection e'.collection ∧
      e.Scoped buyerModel largeOrders .read buyers.database := by
  obtain ⟨⟨htotal, _, _, hshape⟩, hscoped⟩ := @scoped_of_read buyerModel largeOrders .read
    ⟨2, [.ofList [("name", .string "Anna"), ("orders", .array [.object [("total", .int 50)]])],
      .ofList [("name", .string "Bob"), ("orders", .array [.object [("total", .int 70)]])]], 20, 0⟩
    ⟨2, [.ofList [("name", .string "Anna"),
        ("orders", .array [.object [("total", .int 50)], .object [("total", .int 20)]])],
      .ofList [("name", .string "Bob"), ("orders", .array [.object [("total", .int 70)]])]], 20, 0⟩
    buyers ∅ rfl rfl
  exact ⟨_, _, rfl, rfl, by decide, htotal, hshape, (hscoped rfl).1⟩

end Action

end ParamQuery
