import ParamQuery.Proofs.Answer
import ParamQuery.Proofs.KeyText
import ParamQuery.Proofs.Projection
import ParamQuery.Proofs.Question

/-!
# Relations as joins

The related rows of a page are loaded with one statement for all keys, shared out by the texts of
their keys, and nested in the rows of the page. This is the same as looking up, for every row of the
page, the related rows that have its key.

## Main definitions

* `RelationKind.NestsRows` — what a kind of relation nests of the rows that belong to a key.
* `Wanted.related` — the rows of a table that belong to a key.
* `Wanted.Joins` — what a relation comes to for a key.

## Main statements

* `mem_pageKeys`, `nodup_pageKeys` — the keys that related rows are loaded for.
* `Wanted.getD_get?_groupRows` — the related rows that a key gets.
* `Wanted.attach_eq_join` — loading a relation is a join.
-/

namespace ParamQuery

/-- Whether the cell of a column equals a value; null equals nothing. -/
def Table.equals (t : Table) (row : Row) (name : String) (value : Cell) : Bool :=
  match t.column name with
  | .ok (index, _) => (row.cell index).satisfies .eq value
  | .error _ => false

/-- What a kind of relation nests of the rows that belong to a key: a list of all of them, or the
first one, or null if there is none. -/
inductive RelationKind.NestsRows : RelationKind → List Entity → Json → Prop
  | all (rows : List Entity) :
    NestsRows .hasMany rows (.array (rows.map fun row => .object row.entries))
  | first (row : Entity) (rest : List Entity) :
    NestsRows .belongsTo (row :: rest) (.object row.entries)
  | none : NestsRows .belongsTo [] .null

theorem RelationKind.NestsRows.eq_array {rows : List Entity} {value : Json}
    (h : NestsRows .hasMany rows value) :
    value = .array (rows.map fun row => .object row.entries) := by
  cases h
  rfl

/-! ## Keys of a page -/

theorem Entity.key?_eq (entity : Entity) (column : String) :
    entity.key? column = ((entity.get? column).getD .null).keyText? := by
  unfold key?
  cases entity.get? column <;> rfl

theorem pageKeys_append_of_none {column : String} {entity : Entity} (h : entity.key? column = none)
    (page : List Entity) :
    pageKeys column (page ++ [entity]) = pageKeys column page := by
  simp [pageKeys, h]

theorem pageKeys_append_of_some {column key : String} {entity : Entity}
    (h : entity.key? column = some key) (page : List Entity) :
    pageKeys column (page ++ [entity]) =
      if (pageKeys column page).contains key then pageKeys column page
      else pageKeys column page ++ [key] := by
  simp only [pageKeys, List.foldl_append, List.foldl_cons, List.foldl_nil, h]
  rfl

/-- The keys of a page are those of its rows. -/
theorem mem_pageKeys {column key : String} {page : List Entity} :
    key ∈ pageKeys column page ↔ ∃ entity ∈ page, entity.key? column = some key := by
  induction page using List.reverseRecOn with
  | nil => simp [pageKeys]
  | append_singleton page entity ih =>
    simp only [List.mem_append, List.mem_singleton, or_and_right, exists_or, exists_eq_left, ← ih]
    cases hkey : entity.key? column with
    | none => simp [pageKeys_append_of_none hkey]
    | some new =>
      rw [pageKeys_append_of_some hkey]
      split
      · next hmem =>
        refine ⟨.inl, fun h => h.elim id fun h => ?_⟩
        cases h
        simpa using hmem
      · simp [eq_comm]

theorem nodup_pageKeys (column : String) (page : List Entity) : (pageKeys column page).Nodup := by
  induction page using List.reverseRecOn with
  | nil => exact List.nodup_nil
  | append_singleton page entity ih =>
    cases hkey : entity.key? column with
    | none => rwa [pageKeys_append_of_none hkey]
    | some key =>
      rw [pageKeys_append_of_some hkey]
      split
      · exact ih
      · next hnew =>
        rw [List.contains_iff_mem] at hnew
        exact List.nodup_append.2 ⟨ih, List.nodup_singleton key, by
          rintro a ha _ hb rfl
          exact hnew (List.mem_singleton.1 hb ▸ ha)⟩

namespace Wanted

/-! ## Sharing out -/

/-- A related row without its key column, if that was loaded only to share the rows out. -/
def stripped (w : Wanted) (row : Entity) : Entity :=
  if w.stripsKey then row.erase w.relation.relatedColumn else row

theorem groupRows_append_of_none {w : Wanted} {row : Entity}
    (h : row.key? w.relation.relatedColumn = none) (rows : List Entity) :
    w.groupRows (rows ++ [row]) = w.groupRows rows := by
  simp [groupRows, h]

theorem groupRows_append_of_some {w : Wanted} {row : Entity} {key : String}
    (h : row.key? w.relation.relatedColumn = some key) (rows : List Entity) :
    w.groupRows (rows ++ [row]) =
      (w.groupRows rows).update key [] fun group => group ++ [w.stripped row] := by
  simp only [groupRows, List.foldl_append, List.foldl_cons, List.foldl_nil, h]
  rfl

/-- A key gets the rows that have it, in the order loaded. -/
theorem getD_get?_groupRows (w : Wanted) (rows : List Entity) (key : String) :
    ((w.groupRows rows).get? key).getD [] =
      (rows.filter fun row => row.key? w.relation.relatedColumn = some key).map w.stripped := by
  induction rows using List.reverseRecOn with
  | nil => rfl
  | append_singleton rows row ih =>
    rw [List.filter_append, List.map_append, ← ih]
    cases hkey : row.key? w.relation.relatedColumn with
    | none => simp [groupRows_append_of_none hkey, hkey]
    | some new =>
      rw [groupRows_append_of_some hkey, OrderedMap.get?_update]
      by_cases hnew : new = key
      · simp [hkey, hnew]
      · simp [hkey, hnew]

/-! ## Related rows -/

variable {w : Wanted} {filter : Option FilterBuckets} {keys : List String} {db : Database}
  {t : Table} {index : Nat} {column : Column} {columns : List (Nat × Column)}

/-- How a relation fits its table: the relation spells the key column as the table does, the fields
asked for do so too if they name it, and no two columns are called the same. -/
structure Fits (w : Wanted) (t : Table) (index : Nat) (column : Column) : Prop where
  found : t.column w.relation.relatedColumn = .ok (index, column)
  spelling : column.name = w.relation.relatedColumn
  fields : ∀ field ∈ w.fields, sameName field w.relation.relatedColumn = true →
    w.relation.relatedColumn ∈ w.fields
  names : t.DistinctNames

/-- The columns loaded are those asked for, with the key column behind them if it is not one of
them. -/
theorem mapM_query_columns (h : w.Fits t index column)
    (hcolumns : (w.query filter keys).columns.mapM t.column = .ok columns) :
    ∃ shown, w.fields.mapM t.column = .ok shown ∧
      columns = if w.stripsKey then shown ++ [(index, column)] else shown := by
  unfold query at hcolumns
  split at hcolumns
  · next hstrips =>
    rw [List.mapM_append] at hcolumns
    obtain ⟨shown, hshown, hcolumns⟩ := bind_eq_ok_iff.1 hcolumns
    refine ⟨shown, hshown, ?_⟩
    rw [if_pos hstrips]
    simpa [h.found, bind, Except.bind, pure, Except.pure, eq_comm] using hcolumns
  · next hstrips => exact ⟨columns, hcolumns, by rw [if_neg hstrips]⟩

theorem stripsKey_iff :
    w.stripsKey = true ↔ w.fields ≠ [] ∧ w.relation.relatedColumn ∉ w.fields := by
  simp [stripsKey]

/-- The key column is one of the columns loaded. -/
theorem mem_returned (h : w.Fits t index column)
    (hcolumns : (w.query filter keys).columns.mapM t.column = .ok columns) :
    (index, column) ∈ t.returned columns := by
  obtain ⟨shown, hshown, rfl⟩ := mapM_query_columns h hcolumns
  by_cases hstrips : w.stripsKey = true
  · simp [hstrips, Table.returned]
  rw [if_neg hstrips]
  by_cases hfields : w.fields = []
  · rw [hfields] at hshown
    cases hshown
    exact Table.mem_returned_nil.2 (Table.column_eq_ok h.found).1
  · have hmem : w.relation.relatedColumn ∈ w.fields := by
      by_contra hmem
      exact hstrips (stripsKey_iff.2 ⟨hfields, hmem⟩)
    obtain ⟨entry, hentry, heq⟩ := exists_mem_right_of_forall₂ (mapM_eq_ok_iff.1 hshown) hmem
    cases h.found.symm.trans heq
    have hne : shown.isEmpty = false := by
      rw [List.isEmpty_eq_false_iff]
      exact List.ne_nil_of_mem hentry
    simpa [Table.returned, hne] using hentry

/-- The key of a related row is the value of its key column. -/
theorem key?_project (h : w.Fits t index column)
    (hcolumns : (w.query filter keys).columns.mapM t.column = .ok columns) (row : Row) :
    (Record.entity (t.project columns row)).key? w.relation.relatedColumn =
      (row.cell index).keyText? := by
  have hget : (Record.entity (t.project columns row)).get? w.relation.relatedColumn =
      some (row.cell index).datum.toJson := by
    rw [Table.get?_project h.names hcolumns h.found (mem_returned h hcolumns), if_pos h.spelling]
  rw [Entity.key?, hget]
  rfl

/-- A related row has the columns asked for, once it is shared out. -/
theorem stripped_project {shown : List (Nat × Column)} (h : w.Fits t index column)
    (hshown : w.fields.mapM t.column = .ok shown) (row : Row) :
    w.stripped (Record.entity (t.project
      (if w.stripsKey then shown ++ [(index, column)] else shown) row)) =
      Record.entity (t.project shown row) := by
  unfold stripped
  split
  · next hstrips =>
    obtain ⟨hfields, hmem⟩ := stripsKey_iff.1 hstrips
    have hforall := mapM_eq_ok_iff.1 hshown
    have hne : shown.isEmpty = false := by
      rwa [isEmpty_of_mapM_eq_ok hshown, List.isEmpty_eq_false_iff]
    have hproject : t.project (shown ++ [(index, column)]) row =
        t.project shown row ++ [(w.relation.relatedColumn, (row.cell index).datum)] := by
      simp [Table.project, hne, h.spelling]
    rw [hproject, Record.erase_entity_append, Record.erase_entity_of_notMem]
    intro hname
    simp only [Table.project, hne, Bool.false_eq_true, if_false, List.map_map, List.mem_map,
      Function.comp_apply] at hname
    obtain ⟨⟨i, c⟩, hc, hname⟩ := hname
    obtain ⟨field, hfield, heq⟩ := exists_mem_left_of_forall₂ hforall hc
    have hsame : sameName field w.relation.relatedColumn = true := by
      rw [← hname, sameName_comm]
      exact (Table.column_eq_ok heq).2
    exact hmem (h.fields field hfield hsame)
  · rfl

/-! ## The join -/

/-- The rows of a table that belong to a key: their key column equals it, which null never does, and
they satisfy the conditions on the relation. -/
def related (w : Wanted) (filter : Option FilterBuckets) (t : Table) (key : Cell) : List Row :=
  t.rows.filter fun row =>
    t.equals row w.relation.relatedColumn key && filter.all fun buckets => buckets.holds t row

/-- What a relation comes to for a key. Nothing belongs to null. For any other key the rows that
belong to it are nested in the order of the relation, each with the columns asked for. -/
structure Joins (w : Wanted) (filter : Option FilterBuckets) (t : Table) (key : Cell)
    (value : Json) : Prop where
  null : key = .null → w.relation.kind.NestsRows [] value
  rows : key ≠ .null → ∃ shown order, ∃ rows : List Row, w.fields.mapM t.column = .ok shown ∧
    t.index? w.relation.orderColumn = some order ∧
    rows.Perm (w.related filter t key) ∧
    rows.Pairwise (fun a b => (a.cell order).le false (b.cell order) = true) ∧
    w.relation.kind.NestsRows (rows.map fun row => Record.entity (t.project shown row)) value

/-- Loading nests what the kind of the relation says. -/
theorem nestsRows_nested (w : Wanted) (rows : List Entity) :
    w.relation.kind.NestsRows rows (w.nested rows) := by
  unfold nested
  cases w.relation.kind with
  | hasMany => exact .all rows
  | belongsTo =>
    cases rows with
    | nil => exact .none
    | cons row rest => exact .first row rest

/-- An object holds a key of a type, or null, in a column. -/
def HoldsKey (type : ColumnType) (column : String) (entity : Entity) (key : Cell) : Prop :=
  (entity.get? column).getD .null = key.datum.toJson ∧ (key = .null ∨ type.isKey key = true)

theorem HoldsKey.key? {type : ColumnType} {column : String} {entity : Entity} {key : Cell}
    (h : HoldsKey type column entity key) : entity.key? column = key.keyText? := by
  rw [Entity.key?_eq, h.1]
  rfl

/-- What a row of a page becomes: it keeps its other values and has what the relation comes to for
its key under the name of the relation. -/
structure Extends (w : Wanted) (filter : Option FilterBuckets) (t : Table) (type : ColumnType)
    (entity entity' : Entity) : Prop where
  others : ∀ name, name ≠ w.relation.name → entity'.get? name = entity.get? name
  nested : ∀ key, HoldsKey type w.relation.parentColumn entity key →
    ∃ value, entity'.get? w.relation.name = some value ∧ w.Joins filter t key value

/-- A related row is loaded if its key is one of the keys of the page. -/
theorem oneOf_holds_iff {page : List Entity} (h : w.Fits t index column)
    (hpage : ∀ entity ∈ page, ∃ key, HoldsKey column.type w.relation.parentColumn entity key)
    {row : Row} :
    (Condition.oneOf w.relation.relatedColumn (pageKeys w.relation.parentColumn page)).holds t row =
        true ↔
      column.type.isKey (row.cell index) = true ∧
        ∃ entity ∈ page, entity.key? w.relation.parentColumn = (row.cell index).keyText? := by
  simp only [Condition.holds, Table.compares, h.found, List.any_eq_true, Option.any_eq_true]
  constructor
  · rintro ⟨text, htext, bound, hbound, heq⟩
    obtain ⟨entity, hentity, hkey⟩ := mem_pageKeys.1 htext
    obtain ⟨key, hholds⟩ := hpage entity hentity
    rw [hholds.key?] at hkey
    have hiskey : column.type.isKey key = true := by
      rcases hholds.2 with rfl | hiskey
      · cases hkey
      · exact hiskey
    obtain ⟨text', htext', hread⟩ := ColumnType.read?_of_keyText? hiskey
    cases htext'.symm.trans hkey
    cases hread.symm.trans hbound
    rw [ColumnType.eq_of_satisfies hiskey heq]
    exact ⟨hiskey, entity, hentity, hholds.key?⟩
  · rintro ⟨hiskey, entity, hentity, hkey⟩
    obtain ⟨text, htext, hread⟩ := ColumnType.read?_of_keyText? hiskey
    exact ⟨text, mem_pageKeys.2 ⟨entity, hentity, hkey.trans htext⟩, _, hread,
      ColumnType.satisfies_self hiskey⟩

/-- The rows loaded that have the text of a key are those that belong to the key. -/
theorem filter_eq_related {page : List Entity} {entity : Entity} {key : Cell}
    (h : w.Fits t index column)
    (hpage : ∀ entity ∈ page, ∃ key, HoldsKey column.type w.relation.parentColumn entity key)
    (hentity : entity ∈ page) (hkey : entity.key? w.relation.parentColumn = key.keyText?)
    (hiskey : column.type.isKey key = true) :
    (t.rows.filter fun row =>
      (w.query filter (pageKeys w.relation.parentColumn page)).conditions.all
        (Condition.holds t row)).filter (fun row => (row.cell index).keyText? = key.keyText?) =
      w.related filter t key := by
  rw [List.filter_filter, related]
  apply List.filter_congr
  intro row _
  have hconditions : (w.query filter (pageKeys w.relation.parentColumn page)).conditions.all
      (Condition.holds t row) =
      ((Condition.oneOf w.relation.relatedColumn
        (pageKeys w.relation.parentColumn page)).holds t row &&
        filter.all fun buckets => buckets.holds t row) := by
    cases filter <;> simp [query, all_holds_filterConditions]
  rw [hconditions, ← Bool.and_assoc]
  congr 1
  rw [Bool.eq_iff_iff, Bool.and_eq_true, oneOf_holds_iff h hpage, decide_eq_true_iff]
  simp only [Table.equals, h.found]
  constructor
  · rintro ⟨htext, hcell, _⟩
    rw [ColumnType.eq_of_keyText?_eq hcell hiskey htext]
    exact ColumnType.satisfies_self hiskey
  · intro heq
    rw [ColumnType.eq_of_satisfies hiskey heq]
    exact ⟨rfl, hiskey, entity, hentity, hkey⟩

/-- The related rows of a page with a key come from one question. -/
theorem exists_finds_of_loaded {page rows : List Entity}
    (hkeys : pageKeys w.relation.parentColumn page ≠ [])
    (h : (w.loaded filter page).answer db = .ok rows) :
    ∃ t columns sorts found,
      (w.query filter (pageKeys w.relation.parentColumn page)).Finds db t columns sorts found ∧
      rows = (sortRows (rowLe sorts) found).map fun row =>
        Record.entity (t.project columns row) := by
  rw [loaded, if_neg (by simpa using hkeys)] at h
  obtain ⟨records, hrun, rfl⟩ := Action.answer_select_eq_ok_iff.1 h
  obtain ⟨t, columns, sorts, found, hfinds, rfl⟩ := Query.run_eq_ok_iff.1 hrun
  refine ⟨t, columns, sorts, found, hfinds, ?_⟩
  simp [Query.records, Query.cut, Query.totalEntry, query]

/-- A related row that was loaded is a row of the related table, with the columns loaded of it, and
satisfies all conditions of the question. -/
theorem exists_row_of_loaded {page rows : List Entity}
    (h : (w.loaded filter page).answer db = .ok rows) {entity : Entity} (hentity : entity ∈ rows) :
    ∃ t columns row, db.table w.relation.table = .ok t ∧
      (w.query filter (pageKeys w.relation.parentColumn page)).columns.mapM t.column = .ok columns ∧
      row ∈ t.rows ∧ entity = Record.entity (t.project columns row) ∧
      (w.query filter (pageKeys w.relation.parentColumn page)).conditions.all
        (Condition.holds t row) = true := by
  by_cases hkeys : pageKeys w.relation.parentColumn page = []
  · rw [loaded, hkeys] at h
    cases h
    cases hentity
  · obtain ⟨t, columns, sorts, found, hfinds, rfl⟩ := exists_finds_of_loaded hkeys h
    obtain ⟨row, hrow, rfl⟩ := List.mem_map.1 hentity
    rw [(sortRows_perm _ found).mem_iff, hfinds.rows_eq, List.mem_filter] at hrow
    exact ⟨t, columns, row, hfinds.table, hfinds.columns, hrow.1, rfl, hrow.2⟩

/-- Related rows are put in the order of one column. -/
theorem exists_order_of_finds {sorts : List SortIndex} {found : List Row}
    (h : (w.query filter keys).Finds db t columns sorts found) :
    ∃ order, t.index? w.relation.orderColumn = some order ∧ sorts = [(order, false)] := by
  obtain ⟨sorts, hsorts, rfl⟩ := h.order
  rcases mapM_eq_ok_iff.1 hsorts with _ | ⟨hsort, ⟨⟩⟩
  simp only [query, Table.sortIndex, Bool.false_and, Bool.false_eq_true, if_false, bind_eq_ok_iff,
    pure_eq_ok_iff, Prod.exists] at hsort
  obtain ⟨order, column, hcolumn, rfl⟩ := hsort
  exact ⟨order, Table.index?_eq_some_iff.2 ⟨column, hcolumn⟩, rfl⟩

/-- A key gets its rows in the order loaded, each with the columns asked for. -/
theorem getD_get?_groupRows_project (h : w.Fits t index column)
    (hcolumns : (w.query filter keys).columns.mapM t.column = .ok columns) :
    ∃ shown, w.fields.mapM t.column = .ok shown ∧ ∀ (rows : List Row) (text : String),
      ((w.groupRows (rows.map fun row =>
          Record.entity (t.project columns row))).get? text).getD [] =
        (rows.filter fun row => (row.cell index).keyText? = some text).map fun row =>
          Record.entity (t.project shown row) := by
  obtain ⟨shown, hshown, hshape⟩ := mapM_query_columns h hcolumns
  refine ⟨shown, hshown, ?_⟩
  intro rows text
  rw [getD_get?_groupRows, List.filter_map, List.map_map]
  have hfilter : rows.filter ((fun row : Entity =>
      decide (row.key? w.relation.relatedColumn = some text)) ∘ fun row : Row =>
        Record.entity (t.project columns row)) =
      rows.filter fun row => (row.cell index).keyText? = some text := by
    apply List.filter_congr
    intro row _
    rw [Function.comp_apply, key?_project h hcolumns]
  rw [hfilter]
  apply List.map_congr_left
  intro row _
  rw [hshape]
  exact stripped_project h hshown row

theorem get?_place (w : Wanted) (groups : OrderedMap (List Entity)) (entity : Entity) :
    (w.place groups entity).get? w.relation.name =
      some (w.nested (((entity.key? w.relation.parentColumn).bind groups.get?).getD [])) := by
  rw [place, OrderedMap.get?_insert, if_pos rfl]

theorem get?_place_of_ne (w : Wanted) (groups : OrderedMap (List Entity)) (entity : Entity)
    {name : String} (h : name ≠ w.relation.name) :
    (w.place groups entity).get? name = entity.get? name := by
  rw [place, OrderedMap.get?_insert, if_neg h.symm]

/-- What a row of the page gets is what the relation comes to for its key. -/
theorem joins_of_loaded {page rows : List Entity} {entity : Entity} {key : Cell}
    (ht : db.table w.relation.table = .ok t) (hfits : w.Fits t index column)
    (hpage : ∀ entity ∈ page, ∃ key, HoldsKey column.type w.relation.parentColumn entity key)
    (hloaded : (w.loaded filter page).answer db = .ok rows) (hentity : entity ∈ page)
    (hkey : HoldsKey column.type w.relation.parentColumn entity key) :
    w.Joins filter t key
      (w.nested
        (((entity.key? w.relation.parentColumn).bind (w.groupRows rows).get?).getD [])) := by
  constructor
  · rintro rfl
    rw [hkey.key?]
    exact w.nestsRows_nested []
  intro hne
  have hiskey : column.type.isKey key = true := hkey.2.resolve_left hne
  obtain ⟨text, htext, _⟩ := ColumnType.read?_of_keyText? hiskey
  have hmem : text ∈ pageKeys w.relation.parentColumn page :=
    mem_pageKeys.2 ⟨entity, hentity, hkey.key?.trans htext⟩
  obtain ⟨t', columns, sorts, found, hfinds, rfl⟩ :=
    exists_finds_of_loaded (List.ne_nil_of_mem hmem) hloaded
  cases ht.symm.trans hfinds.table
  obtain ⟨shown, hshown, hgroup⟩ := getD_get?_groupRows_project hfits hfinds.columns
  obtain ⟨order, horder, rfl⟩ := exists_order_of_finds hfinds
  refine ⟨shown, order, (sortRows (rowLe [(order, false)]) found).filter fun row =>
    (row.cell index).keyText? = some text, hshown, horder, ?_, ?_, ?_⟩
  · rw [← filter_eq_related hfits hpage hentity hkey.key? hiskey, ← hfinds.rows_eq, htext]
    exact (sortRows_perm _ found).filter _
  · have hsorted := (pairwise_sortRows [(order, false)] found).filter fun row =>
      (row.cell index).keyText? = some text
    exact hsorted.imp fun hle => (rowLe_cons.1 hle).1
  · rw [hkey.key?, htext, Option.bind_some, hgroup]
    exact w.nestsRows_nested _

/-- Loading a relation for a page is a join: every row of the page keeps its other values and gets
the related rows that have its own key. -/
theorem attach_eq_join {w : Wanted} {filter : Option FilterBuckets} {page result : List Entity}
    {s : Session} {t : Table} {index : Nat} {column : Column}
    (ht : s.database.table w.relation.table = .ok t) (hfits : w.Fits t index column)
    (hpage : ∀ entity ∈ page, ∃ key, HoldsKey column.type w.relation.parentColumn entity key)
    (h : (w.attach filter page s).1 = .ok result) :
    List.Forall₂ (w.Extends filter t column.type) page result := by
  rw [(w.reads_attach filter page s).1] at h
  obtain ⟨rows, hloaded, rfl⟩ := answer_attach_eq_ok_iff.1 h
  rw [List.forall₂_map_right_iff, List.forall₂_same]
  intro entity hentity
  constructor
  · intro name hname
    exact w.get?_place_of_ne _ entity hname
  · intro key hkey
    exact ⟨_, w.get?_place _ entity, joins_of_loaded ht hfits hpage hloaded hentity hkey⟩

/-- Orders of people, and the name of the column with the person. -/
def orders (person : String) : Table where
  name := "orders"
  columns := [⟨"id", .integer⟩, ⟨person, .integer⟩, ⟨"total", .integer⟩]
  rows := [[.integer 3, .integer 1, .integer 20], [.integer 1, .integer 1, .integer 50],
    [.integer 2, .integer 2, .integer 70]]

/-- The orders of a person. -/
def ordersOf : Wanted := ⟨.hasMany "orders" "orders" "user_id", ["total"]⟩

/-- The first order of a person. -/
def firstOrderOf : Wanted :=
  ⟨{ Relation.belongsTo "order" "orders" "id" with relatedColumn := "user_id" }, ["total"]⟩

/-- People by their keys: one, twice, nobody, and one without orders. -/
def people : List Entity :=
  [.ofList [("id", .int 1)], .ofList [("id", .null)], .ofList [("id", .int 1)],
    .ofList [("id", .int 3)]]

/-- The totals above ten of the orders of these people, and those of their first orders. -/
theorem attach_orders :
    List.Forall₂ (Extends ordersOf (some (FilterBuckets.insert {} .gt "total" "10"))
        (orders "user_id") .integer) people
      [.ofList [("id", .int 1), ("orders", .array [.object [("total", .int 50)],
          .object [("total", .int 20)]])],
        .ofList [("id", .null), ("orders", .array [])],
        .ofList [("id", .int 1), ("orders", .array [.object [("total", .int 50)],
          .object [("total", .int 20)]])],
        .ofList [("id", .int 3), ("orders", .array [])]] ∧
    List.Forall₂ (Extends firstOrderOf (some (FilterBuckets.insert {} .gt "total" "10"))
        (orders "user_id") .integer) people
      [.ofList [("id", .int 1), ("order", .object [("total", .int 50)])],
        .ofList [("id", .null), ("order", .null)],
        .ofList [("id", .int 1), ("order", .object [("total", .int 50)])],
        .ofList [("id", .int 3), ("order", .null)]] := by
  have hpeople : ∀ entity ∈ people, ∃ key, HoldsKey .integer "id" entity key := by
    simp only [people, List.forall_mem_cons]
    exact ⟨⟨.integer 1, rfl, .inr rfl⟩, ⟨.null, rfl, .inl rfl⟩, ⟨.integer 1, rfl, .inr rfl⟩,
      ⟨.integer 3, rfl, .inr rfl⟩, by simp⟩
  constructor
  · exact @attach_eq_join ordersOf (some (FilterBuckets.insert {} .gt "total" "10")) people _
      { database := { tables := [orders "user_id"] } } (orders "user_id") 1
      ⟨"user_id", .integer⟩ rfl ⟨rfl, rfl, by decide, by decide⟩ hpeople rfl
  · exact @attach_eq_join firstOrderOf (some (FilterBuckets.insert {} .gt "total" "10")) people _
      { database := { tables := [orders "user_id"] } } (orders "user_id") 1
      ⟨"user_id", .integer⟩ rfl ⟨rfl, rfl, by decide, by decide⟩ hpeople rfl

/-- A relation that spells its key column in another way than the table loses the related rows, and
a field that spells it in another way is taken out again. -/
theorem not_extends_of_spelling :
    (∃ result,
      (attach ⟨.hasMany "orders" "orders" "user_id", ["total"]⟩ none [.ofList [("id", .int 1)]]
        { database := { tables := [orders "USER_ID"] } }).1 = .ok [result] ∧
      ¬ Extends ⟨.hasMany "orders" "orders" "user_id", ["total"]⟩ none (orders "USER_ID") .integer
        (.ofList [("id", .int 1)]) result) ∧
    ∃ result,
      (attach ⟨.hasMany "orders" "orders" "user_id", ["USER_ID"]⟩ none [.ofList [("id", .int 1)]]
        { database := { tables := [orders "user_id"] } }).1 = .ok [result] ∧
      ¬ Extends ⟨.hasMany "orders" "orders" "user_id", ["USER_ID"]⟩ none (orders "user_id") .integer
        (.ofList [("id", .int 1)]) result := by
  refine ⟨⟨.ofList [("id", .int 1), ("orders", .array [])], rfl, fun h => ?_⟩,
    ⟨.ofList [("id", .int 1), ("orders", .array [.object [], .object []])], rfl, fun h => ?_⟩⟩
  · obtain ⟨value, hvalue, hjoins⟩ := h.nested (.integer 1) ⟨rfl, .inr rfl⟩
    cases hvalue
    obtain ⟨shown, order, rows, _, _, hperm, _, hnested⟩ := hjoins.rows nofun
    have hlength : rows.length = 2 := hperm.length_eq
    have hnone : rows = [] := by simpa using (Json.array.inj hnested.eq_array).symm
    rw [hnone] at hlength
    cases hlength
  · obtain ⟨value, hvalue, hjoins⟩ := h.nested (.integer 1) ⟨rfl, .inr rfl⟩
    cases hvalue
    obtain ⟨shown, order, rows, hshown, _, hperm, _, hnested⟩ := hjoins.rows nofun
    obtain rfl : [(1, ⟨"user_id", .integer⟩)] = shown := Except.ok.inj hshown
    cases rows with
    | nil => cases hperm.length_eq
    | cons row rest =>
      have hempty := Json.object.inj (List.cons.inj (Json.array.inj hnested.eq_array)).1
      exact absurd hempty (List.cons_ne_nil _ _).symm

end Wanted

end ParamQuery
