import ParamQuery.Proofs.Read.Columns
import ParamQuery.Proofs.Read.Nesting
import ParamQuery.Proofs.RowOrder
import ParamQuery.Proofs.Write.Atomicity

/-!
# Reading back what was updated

An update returns its row with all columns, nests relations in it and then hides what was not asked
for. A read of the same row asks for the columns that it needs, nests relations and then takes out
the columns that only relations needed. Both show the same values, except that a key column which
the model spells in another way than the table shows in the read.

## Main definitions

* `Table.Distinguishes` — no two rows have equal values in a column.
* `QueryIntent.Fits` — how an update fits its model and its table.
* `QueryIntent.ReadsBack` — an intent to read the row of an update.

## Main statements

* `Table.filter_key_eq_singleton` — a key that tells rows apart chooses one.
* `Table.sameOn_shown` — a row shows the same values whichever columns are read with them.
* `Action.read_of_update` — a read after an update gives back what the update returned.
-/

namespace ParamQuery

/-! ## The row of a key -/

namespace Table

variable {t : Table} {row : Row} {name key : String}

/-- No two rows have equal values in a column; null equals nothing. -/
def Distinguishes (t : Table) (name : String) : Prop :=
  ∀ index, t.index? name = some index →
    t.rows.Pairwise fun a b => (a.cell index).satisfies .eq (b.cell index) = false

/-- A key that tells rows apart chooses one. -/
theorem filter_key_eq_singleton (h : t.Distinguishes name) (hrow : row ∈ t.rows)
    (hkey : t.compares row .eq name key = true) :
    (t.rows.filter fun row => t.compares row .eq name key) = [row] := by
  obtain ⟨index, column, bound, hcolumn, hread, hequal⟩ := compares_eq_true_iff.1 hkey
  have hmem : row ∈ t.rows.filter fun row => t.compares row .eq name key :=
    List.mem_filter.2 ⟨hrow, hkey⟩
  have hpairs := (h index (index?_eq_some_iff.2 ⟨column, hcolumn⟩)).filter
    fun row => t.compares row .eq name key
  have hchosen (other : Row) (hother : other ∈ t.rows.filter fun row =>
      t.compares row .eq name key) : (other.cell index).satisfies .eq bound = true := by
    obtain ⟨_, _, _, hcolumn', hread', hequal'⟩ :=
      compares_eq_true_iff.1 (List.mem_filter.1 hother).2
    cases hcolumn.symm.trans hcolumn'
    cases hread.symm.trans hread'
    exact hequal'
  cases hfilter : t.rows.filter fun row => t.compares row .eq name key with
  | nil =>
    rw [hfilter] at hmem
    cases hmem
  | cons first rest =>
    rw [hfilter] at hmem hpairs hchosen
    cases rest with
    | nil => rw [List.mem_singleton.1 hmem]
    | cons second rest =>
      -- both equal the key, so they equal each other
      obtain ⟨hfirst, _, hbound⟩ := Cell.satisfies_eq_iff.1 (hchosen first (by simp))
      obtain ⟨hsecond, _, hbound'⟩ := Cell.satisfies_eq_iff.1 (hchosen second (by simp))
      have hequal : (first.cell index).satisfies .eq (second.cell index) = true :=
        Cell.satisfies_eq_iff.2 ⟨hfirst, hsecond, hbound.trans hbound'.symm⟩
      rw [(List.pairwise_cons.1 hpairs).1 second (by simp)] at hequal
      cases hequal

/-- The condition that a column has a value can be tested on any rows if some row satisfies it. -/
theorem matching_keyCondition (hkey : t.compares row .eq name key = true) (rows : List Row) :
    Table.matching { t with rows := rows } [keyCondition name key] =
      .ok (rows.filter fun row => t.compares row .eq name key) := by
  obtain ⟨index, column, bound, hcolumn, hread, _⟩ := compares_eq_true_iff.1 hkey
  have hcolumn' : Table.column { t with rows := rows } name = .ok (index, column) := hcolumn
  refine matching_eq_ok_iff.2 ⟨[.compare index column.type .eq key], ?_, fun row _ => ?_, ?_⟩
  · simp [keyCondition, test, hcolumn', bind, Except.bind, pure, Except.pure]
  · have hread : column.type.read key = .ok bound := ColumnType.read_eq_ok_iff.2 hread
    refine ⟨(row.cell index).satisfies .eq bound, ?_⟩
    cases hholds : (row.cell index).satisfies .eq bound <;>
      simp [Test.allHold, Test.holds, hread, hholds, bind, Except.bind, pure, Except.pure]
  · simp only [keyCondition, Condition.holds, List.all_cons, List.all_nil, Bool.and_true]
    rfl

/-- Writing values to other columns does not change how a column compares. -/
theorem compares_assign {values : List (String × String)} {cells : List (Nat × Cell)}
    (hcells : t.Assigns values cells) (hother : ∀ value ∈ values, sameName value.1 name = false)
    (row : Row) (op : CompareOp) :
    t.compares (assign cells row) op name key = t.compares row op name key := by
  unfold compares
  cases hcolumn : t.column name with
  | error fault => rfl
  | ok found =>
    obtain ⟨index, column⟩ := found
    have hindex : ∀ value ∈ values, t.index? value.1 ≠ some index := by
      intro value hvalue hindex
      obtain ⟨column', hcolumn'⟩ := index?_eq_some_iff.1 hindex
      obtain ⟨hget, hname⟩ := column_eq_ok hcolumn
      obtain ⟨hget', hname'⟩ := column_eq_ok hcolumn'
      obtain rfl : column = column' := Option.some.inj (hget.symm.trans hget')
      rw [sameName_comm] at hname'
      have hsame := sameName_trans hname' hname
      rw [hother value hvalue] at hsame
      cases hsame
    dsimp only
    rw [Row.cell, getElem?_assign_of_notMem (hcells.notMem hindex), ← Row.cell]

/-- After values are written to the row with a key, and none of them to the key, the key still
chooses this row. -/
theorem matching_key_of_assign {values : List (String × String)} {cells : List (Nat × Cell)}
    (h : t.Distinguishes name) (hcells : t.Assigns values cells)
    (hother : ∀ value ∈ values, sameName value.1 name = false) (hrow : row ∈ t.rows)
    (hkey : t.compares row .eq name key = true) :
    Table.matching
      { t with
        rows := t.rows.map fun row =>
          if t.compares row .eq name key = true then assign cells row else row }
      [keyCondition name key] = .ok [assign cells row] := by
  have hsame : (fun row => t.compares row .eq name key) ∘
      (fun row => if t.compares row .eq name key = true then assign cells row else row) =
        fun row => t.compares row .eq name key := by
    funext row
    dsimp only [Function.comp]
    split
    · exact compares_assign hcells hother row .eq
    · rfl
  rw [matching_keyCondition hkey, List.filter_map, hsame, filter_key_eq_singleton h hrow hkey,
    List.map_singleton, if_pos hkey]

/-! ## The values of a row -/

variable {names : List String} {columns : List (Nat × Column)}

/-- Where no column is called like the total, taking the total out changes nothing. -/
theorem get?_shown (htotal : ∀ column ∈ t.columns, column.name ≠ totalColumn)
    (hcolumns : names.mapM t.column = .ok columns) (row : Row) (name : String) :
    (t.shown columns row).get? name = (Record.entity (t.project columns row)).get? name := by
  rw [shown, OrderedMap.get?_erase]
  split
  · next heq =>
    subst heq
    refine (get?_project_eq_none fun entry hentry => htotal entry.2 ?_).symm
    exact List.mem_of_getElem? (getElem?_of_mem_returned hcolumns hentry)
  · rfl

/-- A row shows the same values under the names read whichever columns are read with them. -/
theorem sameOn_shown (hdistinct : t.DistinctNames)
    (htotal : ∀ column ∈ t.columns, column.name ≠ totalColumn)
    (hcolumns : names.mapM t.column = .ok columns) (hnames : names ≠ []) (row : Row) :
    Entity.SameOn names (Record.entity (t.record row)) (t.shown columns row) := by
  intro name hname
  obtain ⟨entry, hentry, hcolumn⟩ := exists_mem_right_of_forall₂ (mapM_eq_ok_iff.1 hcolumns) hname
  have hall : ([] : List String).mapM t.column = .ok [] := rfl
  rw [get?_shown htotal hcolumns, record_eq_project,
    get?_project hdistinct hcolumns hcolumn (by rwa [returned_eq_self hcolumns hnames]),
    get?_project hdistinct hall hcolumn (mem_returned_nil.2 (column_eq_ok hcolumn).1)]

end Table

/-! ## Updates and reads -/

/-- The features of an update that returns chosen fields and relations, and of a read with a key. -/
def Capabilities.shaping : Capabilities := .ofList [.fields, .relations, .filter]

namespace QueryIntent

/-- How an update fits its model and its table: names and keys tell columns and rows apart, the
columns asked for are spelled as in the table, the key is not written, and the key columns of the
relations asked for are columns that no relation is called like. -/
structure Fits (intent : QueryIntent) (m : Model) (t : Table) : Prop where
  names : t.DistinctNames
  notTotal : ∀ column ∈ t.columns, column.name ≠ totalColumn
  key : t.Distinguishes m.primaryKey
  select_ne_nil : intent.fields.select ≠ []
  select : ∀ name ∈ intent.fields.select, ∃ column ∈ t.columns, column.name = name
  body : ∀ name ∈ intent.body.keys, sameName name m.primaryKey = false
  parents : ∀ name ∈ intent.fields.relations.keys, ∀ r, m.relation? name = some r →
    (∃ found, t.column r.parentColumn = .ok found) ∧
      r.parentColumn ∉ intent.fields.relations.keys

/-- An intent asks for the row of a key, with the fields and the conditions on relations of another
intent. -/
structure ReadsBack (reading intent : QueryIntent) (m : Model) (key : String) : Prop where
  fields : reading.fields = intent.fields
  base : reading.filter.base = FilterBuckets.insert {} .eq m.primaryKey key
  relations : reading.filter.relations = intent.filter.relations

/-- A name that is not asked for means the key column of a relation that is asked for, in the
spelling of the table, where the model has another one. -/
def ShowsParent (intent : QueryIntent) (m : Model) (t : Table) (name : String) : Prop :=
  name ∉ intent.fields.visibleKeys ∧ ∃ relation ∈ intent.fields.relations.keys, ∃ r index column,
    m.relation? relation = some r ∧ t.column r.parentColumn = .ok (index, column) ∧
      column.name = name ∧ column.name ≠ r.parentColumn

/-- Where the model spells the key columns as the table does, none of them shows. -/
theorem Fits.not_showsParent {intent : QueryIntent} {m : Model} {t : Table} {name : String}
    (h : intent.Fits m t)
    (hspelled : ∀ relation ∈ intent.fields.relations.keys, ∀ r, m.relation? relation = some r →
      ∃ column ∈ t.columns, column.name = r.parentColumn) : ¬ intent.ShowsParent m t name := by
  rintro ⟨_, relation, hrelation, r, index, column, hr, hcolumn, _, hother⟩
  obtain ⟨column', hmem, hname⟩ := hspelled relation hrelation r hr
  obtain ⟨index', hindex'⟩ := h.names.exists_column_eq hmem
  rw [hname] at hindex'
  cases hcolumn.symm.trans hindex'
  exact hother hname

end QueryIntent

namespace Action

variable {m : Model} {t : Table} {key : String} {intent reading : QueryIntent} {db : Database}
  {wanted : List Wanted} {columns : List (Nat × Column)} {row : Row}

/-- The relations to load are those asked for. -/
theorem exists_relation_of_mem (hwanted : wantedRelations m intent.fields .shaping = .ok wanted)
    {w : Wanted} (hw : w ∈ wanted) :
    w.relation.name ∈ intent.fields.relations.keys ∧
      m.relation? w.relation.name = some w.relation := by
  have hresolve : m.resolveAll intent.fields.relations.entries = .ok wanted := hwanted
  obtain ⟨entry, hentry, hrelation, _⟩ :=
    exists_mem_left_of_forall₂ (Model.resolveAll_eq_ok_iff.1 hresolve) hw
  rw [Model.name_of_relation? hrelation]
  exact ⟨List.mem_map_of_mem hentry, hrelation⟩

/-- The columns of a read that fits are all there. -/
theorem exists_columns_of_fits (hfits : intent.Fits m t)
    (hwanted : wantedRelations m intent.fields .shaping = .ok wanted) :
    ∃ columns, (addHelpers wanted intent.fields.select).1.mapM t.column = .ok columns := by
  refine exists_mapM_eq_ok fun name hname => ?_
  rw [addHelpers_fst, List.mem_append] at hname
  rcases hname with hname | hname
  · obtain ⟨column, hcolumn, rfl⟩ := hfits.select name hname
    obtain ⟨index, hindex⟩ := hfits.names.exists_column_eq hcolumn
    exact ⟨_, hindex⟩
  · obtain ⟨w, hw, rfl⟩ := exists_of_mem_addHelpers hname
    obtain ⟨hname, hrelation⟩ := exists_relation_of_mem hwanted hw
    exact (hfits.parents _ hname _ hrelation).1

/-- The columns of a read are those asked for and the key columns of relations. -/
theorem readColumns_of_readsBack (hreading : reading.ReadsBack intent m key)
    (hselect : intent.fields.select ≠ []) :
    readColumns reading .shaping wanted = addHelpers wanted intent.fields.select := by
  have hne : (!intent.fields.select.isEmpty) = true := by simpa using hselect
  rw [readColumns, hreading.fields, hne]
  rfl

/-- A read with a key finds the row that has it, whatever the rows have become. -/
theorem exists_finds_of_readsBack (hreading : reading.ReadsBack intent m key) {rows : List Row}
    (ht : db.table m.table = .ok { t with rows := rows })
    (hcolumns : (addHelpers wanted intent.fields.select).1.mapM t.column = .ok columns)
    (hselect : intent.fields.select ≠ [])
    (hkey : Table.matching { t with rows := rows } [Table.keyCondition m.primaryKey key] =
      .ok [row]) :
    ∃ sorts, (readQuery m reading .shaping wanted).Finds db { t with rows := rows } columns sorts
      [row] := by
  have hconditions : readConditions m reading .shaping =
      [Table.keyCondition m.primaryKey key] := by
    rw [readConditions, hreading.base]
    rfl
  have horder : readOrder m reading .shaping = [⟨m.primaryKey, .asc⟩] := by
    unfold readOrder
    cases reading.order <;> rfl
  obtain ⟨tests, htests, _⟩ := Table.matching_eq_ok_iff.1 hkey
  obtain ⟨⟨index, column⟩, hcolumn⟩ : ∃ found, t.column m.primaryKey = .ok found := by
    obtain ⟨test, _, htest⟩ :=
      exists_mem_right_of_forall₂ (mapM_eq_ok_iff.1 htests) (List.mem_singleton.2 rfl)
    obtain ⟨found, hfound, _⟩ := ParamQuery.bind_eq_ok_iff.1 htest
    exact ⟨found, hfound⟩
  obtain ⟨found, hfound⟩ : ∃ found,
      (readQuery m reading .shaping wanted).order.mapM
        (Table.sortIndex { t with rows := rows } true) = .ok found := by
    refine exists_mapM_eq_ok fun sort hsort => ?_
    rw [readQuery, horder, List.mem_singleton] at hsort
    subst hsort
    unfold Table.sortIndex
    split
    · exact ⟨_, rfl⟩
    · exact ⟨some (index, false), ParamQuery.bind_eq_ok_iff.2 ⟨(index, column), hcolumn, rfl⟩⟩
  have hpage : (readQuery m reading .shaping wanted).page = none := rfl
  refine ⟨found.filterMap id, ht, ?_, ⟨found, hfound, rfl⟩, by simp [hpage], ?_⟩
  · rw [readQuery, readColumns_of_readsBack hreading hselect]
    exact hcolumns
  · rw [readQuery, hconditions]
    exact hkey

/-- An updated row shows its values under the names asked for, and no other ones. -/
theorem get?_visible (hselect : intent.fields.select ≠ []) (entity : Entity) (name : String) :
    (visible intent .shaping entity).get? name =
      if name ∈ intent.fields.visibleKeys then entity.get? name else none := by
  have hcaps : Capabilities.shaping.contains .fields = true := rfl
  have hne : intent.fields.visibleKeys.isEmpty = false := by
    simp [FieldSelection.visibleKeys, hselect]
  rw [visible, if_pos hcaps, Entity.restrictTo, hne, if_neg Bool.false_ne_true,
    OrderedMap.get?_restrict]
  simp only [List.contains_iff_mem]

/-- The names of the relations to load are the names of those asked for. -/
theorem mem_map_name_iff (hwanted : wantedRelations m intent.fields .shaping = .ok wanted)
    {name : String} :
    name ∈ (wanted.map fun w => w.relation.name) ↔ name ∈ intent.fields.relations.keys := by
  rw [List.mem_map]
  exact exists_wanted_iff hwanted fun _ _ => rfl

/-- No key column is called like a relation that is loaded. -/
theorem parentColumn_ne_of_fits (hfits : intent.Fits m t)
    (hwanted : wantedRelations m intent.fields .shaping = .ok wanted) {w : Wanted}
    (hw : w ∈ wanted) {name : String} (hname : name ∈ intent.fields.relations.keys) :
    w.relation.parentColumn ≠ name := by
  obtain ⟨hrelation, hfound⟩ := exists_relation_of_mem hwanted hw
  rintro rfl
  exact (hfits.parents _ hrelation _ hfound).2 hname

/-- A column that is read, and is neither asked for nor taken out again, is the key column of a
relation in another spelling. -/
theorem showsParent_of_mem_returned (hfits : intent.Fits m t)
    (hwanted : wantedRelations m intent.fields .shaping = .ok wanted)
    (hcolumns : (addHelpers wanted intent.fields.select).1.mapM t.column = .ok columns)
    {entry : Nat × Column} (hentry : entry ∈ t.returned columns)
    (hvisible : entry.2.name ∉ intent.fields.visibleKeys)
    (hhelper : entry.2.name ∉ (addHelpers wanted intent.fields.select).2) :
    intent.ShowsParent m t entry.2.name := by
  have hnames : (addHelpers wanted intent.fields.select).1 ≠ [] := by
    rw [addHelpers_fst]
    exact List.append_ne_nil_of_left_ne_nil hfits.select_ne_nil _
  obtain ⟨name, hname, hcolumn⟩ := Table.exists_name_of_mem_returned hcolumns hnames hentry
  rw [addHelpers_fst, List.mem_append] at hname
  rcases hname with hname | hname
  · obtain ⟨column, hmem, rfl⟩ := hfits.select name hname
    obtain ⟨index, hindex⟩ := hfits.names.exists_column_eq hmem
    cases hcolumn.symm.trans hindex
    exact absurd (List.mem_append_left _ hname) hvisible
  · obtain ⟨w, hw, rfl⟩ := exists_of_mem_addHelpers hname
    obtain ⟨hmem, hrelation⟩ := exists_relation_of_mem hwanted hw
    refine ⟨hvisible, w.relation.name, hmem, w.relation, entry.1, entry.2, hrelation, hcolumn, rfl,
      fun hspelled => hhelper ?_⟩
    rwa [hspelled]

/-- A row read with the columns of a read gets the same relations nested as the whole row. It shows
the same values under the names asked for, and under other names at most key columns. -/
theorem exists_nested_of_fits (hfits : intent.Fits m t)
    (hwanted : wantedRelations m intent.fields .shaping = .ok wanted)
    (hcolumns : (addHelpers wanted intent.fields.select).1.mapM t.column = .ok columns)
    {filter : Wanted → Option FilterBuckets} {loaded : Entity} {more : List Entity}
    (hloaded : (Wanted.attachAll filter wanted [Record.entity (t.record row)]).answer db =
      .ok (loaded :: more)) :
    ∃ nested, (Wanted.attachAll filter wanted [t.shown columns row]).answer db = .ok [nested] ∧
      ∀ name,
        OrderedMap.get? (withoutHelpers (addHelpers wanted intent.fields.select).2 nested) name =
          (visible intent .shaping loaded).get? name ∨ intent.ShowsParent m t name := by
  have hnames : (addHelpers wanted intent.fields.select).1 ≠ [] := by
    rw [addHelpers_fst]
    exact List.append_ne_nil_of_left_ne_nil hfits.select_ne_nil _
  have hshown := Table.sameOn_shown hfits.names hfits.notTotal hcolumns hnames row
  have hkeys : Wanted.SameKeys wanted (Record.entity (t.record row)) (t.shown columns row) := by
    intro w hw
    rw [Entity.key?, Entity.key?, hshown _ (parentColumn_mem_addHelpers hw _)]
  obtain ⟨result, hresult, hsame⟩ := Wanted.exists_answer_attachAll
    (fun w hw w' hw' => parentColumn_ne_of_fits hfits hwanted hw
      (exists_relation_of_mem hwanted hw').1)
    (.cons ⟨hkeys, hshown⟩ .nil) hloaded
  obtain _ | @⟨_, nested, _, rest, hsame, _⟩ := hsame
  obtain ⟨hbut, hrest⟩ := List.forall₂_cons.1 (Wanted.sameBut_of_answer_attachAll hresult)
  obtain rfl := List.forall₂_nil_left_iff.1 hrest
  refine ⟨nested, hresult, fun name => ?_⟩
  rw [get?_withoutHelpers, get?_visible hfits.select_ne_nil]
  by_cases hhelper : name ∈ (addHelpers wanted intent.fields.select).2
  · -- a helper is neither a column asked for nor called like a relation
    left
    obtain ⟨w, hw, hparent⟩ := exists_of_mem_addHelpers hhelper
    have hhidden : name ∉ intent.fields.visibleKeys := by
      rw [FieldSelection.visibleKeys, List.mem_append, not_or]
      refine ⟨notMem_of_mem_addHelpers hhelper, fun hrelation => ?_⟩
      exact parentColumn_ne_of_fits hfits hwanted hw hrelation hparent
    rw [if_pos hhelper, if_neg hhidden]
  rw [if_neg hhelper]
  by_cases hmem : name ∈ intent.fields.visibleKeys
  · left
    rw [if_pos hmem]
    refine hsame name ?_
    rw [addHelpers_fst, List.mem_append, List.mem_append, mem_map_name_iff hwanted]
    exact (List.mem_append.1 hmem).imp_left .inl
  · rw [if_neg hmem]
    have hrelation : name ∉ wanted.map fun w => w.relation.name := by
      rw [mem_map_name_iff hwanted]
      exact fun hrelation => hmem (List.mem_append_right _ hrelation)
    rw [hbut name hrelation, Table.get?_shown hfits.notTotal hcolumns]
    by_cases hread : ∃ entry ∈ t.returned columns, entry.2.name = name
    · obtain ⟨entry, hentry, rfl⟩ := hread
      exact .inr (showsParent_of_mem_returned hfits hwanted hcolumns hentry hmem hhelper)
    · exact .inl (Table.get?_project_eq_none fun entry hentry heq => hread ⟨entry, hentry, heq⟩)

/-- A read with the key of a row that was updated, for the same fields and conditions on relations,
gives back one row, which shows what the update returned. Under other names than those asked for it
shows at most the key columns of relations that the model spells in another way than the table, so
nothing where the model spells them alike. -/
theorem read_of_update {s s' : Session} {entity : Entity} (ht : s.database.table m.table = .ok t)
    (hfits : intent.Fits m t) (hreading : reading.ReadsBack intent m key)
    (h : update m key intent .shaping s = (.ok entity, s')) :
    ∃ entity', (read m reading .shaping s').1 = .ok ⟨1, [entity'], 1, 0⟩ ∧
      (∀ name, entity'.get? name = entity.get? name ∨ intent.ShowsParent m t name) ∧
      ((∀ relation ∈ intent.fields.relations.keys, ∀ r, m.relation? relation = some r →
          ∃ column ∈ t.columns, column.name = r.parentColumn) →
        ∀ name, entity'.get? name = entity.get? name) := by
  obtain ⟨wanted, answer, record, rest, loaded, more, hwanted, hupdate, hrecords, hloaded, rfl⟩ :=
    exists_of_update h
  obtain ⟨t', cells, ht', hassigns, ⟨row, hrow, hkey⟩, hanswer, hdb⟩ :=
    Database.exists_of_updateRows hupdate (by simp [hrecords])
  obtain rfl : t = t' := Except.ok.inj (ht.symm.trans ht')
  have hother : ∀ value ∈ intent.body.entries, sameName value.1 m.primaryKey = false :=
    fun value hvalue => hfits.body value.1 (List.mem_map_of_mem hvalue)
  have hrecord : record = t.record (Table.assign cells row) := by
    rw [hrecords, Table.filter_key_eq_singleton hfits.key hrow hkey] at hanswer
    exact (List.cons.inj hanswer).1
  rw [hrecord] at hloaded
  obtain ⟨columns, hcolumns⟩ := exists_columns_of_fits hfits hwanted
  obtain ⟨nested, hnested, hshows⟩ := exists_nested_of_fits hfits hwanted hcolumns hloaded
  obtain ⟨sorts, hfinds⟩ := exists_finds_of_readsBack hreading (hdb ▸ Database.table_setRows ht)
    hcolumns hfits.select_ne_nil
    (Table.matching_key_of_assign hfits.key hassigns hother hrow hkey)
  have hfilter : relationFilter reading .shaping =
      fun w => intent.filter.relation? w.relation.name := by
    funext w
    change reading.filter.relation? w.relation.name = _
    rw [FilterSet.relation?, hreading.relations]
    rfl
  refine ⟨withoutHelpers (addHelpers wanted intent.fields.select).2 nested, ?_, hshows,
    fun hspelled name => (hshows name).resolve_right (hfits.not_showsParent hspelled)⟩
  rw [(reads_read m reading .shaping s').1, answer_read_iff]
  have hpage : (readQuery m reading .shaping wanted).page = none := rfl
  refine ⟨wanted, _, columns, sorts, _, 1, [nested], by rw [hreading.fields, hwanted], hfinds,
    answer_total rfl hfinds (by simp [hpage]), ?_, ?_⟩
  · rw [hfilter]
    exact hnested
  · rw [readEnvelope, readColumns_of_readsBack hreading hfits.select_ne_nil]
    rfl

/-- Users. -/
def users : Table where
  name := "users"
  columns := [⟨"id", .integer⟩, ⟨"name", .varchar⟩]
  key := some "id"
  rows := [[.integer 1, .text "anna"], [.integer 2, .text "bob"]]

/-- Users and what they ordered. -/
def shop : Session where
  database := { tables := [users, {
    name := "orders"
    columns := [⟨"id", .integer⟩, ⟨"user_id", .integer⟩, ⟨"total", .integer⟩]
    key := some "id"
    rows := [[.integer 10, .integer 1, .integer 50], [.integer 11, .integer 2, .integer 70]] }] }

/-- Users with their orders, by a key column in some spelling. -/
def userModel (parentColumn : String) : Model where
  table := "users"
  relations := [{ Relation.hasMany "orders" "orders" "user_id" with parentColumn := parentColumn }]

/-- A new name for a user. -/
def newName : QueryIntent where
  fields := ⟨["name"], .ofList [("orders", ["total"])]⟩
  pagination := ⟨20, 0⟩
  body := .ofList [("name", "eve")]

/-- The question for the user with the first key. -/
def rereading : QueryIntent where
  fields := ⟨["name"], .ofList [("orders", ["total"])]⟩
  filter := { base := FilterBuckets.insert {} .eq "id" "1" }
  pagination := ⟨20, 0⟩

theorem readsBack_rereading (parentColumn : String) :
    rereading.ReadsBack newName (userModel parentColumn) "1" := ⟨rfl, rfl, rfl⟩

/-- A new name for a user fits, in whatever spelling the model has the key column. -/
theorem fits_newName {parentColumn : String} {index : Nat} {column : Column}
    (hcolumn : users.column parentColumn = .ok (index, column)) (hname : parentColumn ≠ "orders") :
    newName.Fits (userModel parentColumn) users where
  names := by decide
  notTotal := by decide
  key := by
    intro index hindex
    have hid : users.index? "id" = some 0 := rfl
    obtain rfl : 0 = index := Option.some.inj (hid.symm.trans hindex)
    decide
  select_ne_nil := List.cons_ne_nil _ _
  select := by decide
  body := by
    change ∀ name ∈ newName.body.keys, sameName name "id" = false
    decide
  parents := by
    intro name hmem r hrelation
    obtain rfl : name = "orders" := List.mem_singleton.1 hmem
    obtain rfl := Option.some.inj hrelation
    exact ⟨⟨_, hcolumn⟩, fun hmem => hname (List.mem_singleton.1 hmem)⟩

/-- A user with a new name is read back with the orders. -/
theorem read_of_newName :
    ∃ s' entity entity', update (userModel "id") "1" newName .shaping shop = (.ok entity, s') ∧
      (read (userModel "id") rereading .shaping s').1 = .ok ⟨1, [entity'], 1, 0⟩ ∧
      entity.get? "name" = some (.string "eve") ∧ ∀ name, entity'.get? name = entity.get? name := by
  obtain ⟨s', hupdate⟩ : ∃ s', update (userModel "id") "1" newName .shaping shop =
      (.ok (.ofList [("name", .string "eve"), ("orders", .array [.object [("total", .int 50)]])]),
        s') := ⟨_, rfl⟩
  obtain ⟨entity', hread, _, hsame⟩ := read_of_update rfl (fits_newName rfl (by decide))
    (readsBack_rereading "id") hupdate
  refine ⟨s', _, entity', hupdate, hread, rfl, hsame fun relation hrelation r hr => ?_⟩
  obtain rfl : relation = "orders" := List.mem_singleton.1 hrelation
  obtain rfl := Option.some.inj hr
  exact ⟨⟨"id", .integer⟩, List.mem_cons_self, rfl⟩

/-- A read after an update can show a key column that the update hides, where the model spells it in
another way than the table. -/
theorem read_shows_parent :
    ∃ s' entity entity', newName.Fits (userModel "ID") users ∧
      rereading.ReadsBack newName (userModel "ID") "1" ∧
      update (userModel "ID") "1" newName .shaping shop = (.ok entity, s') ∧
      (read (userModel "ID") rereading .shaping s').1 = .ok ⟨1, [entity'], 1, 0⟩ ∧
      entity.get? "id" = none ∧ entity'.get? "id" = some (.int 1) :=
  ⟨_, .ofList [("name", .string "eve"), ("orders", .array [])],
    .ofList [("name", .string "eve"), ("id", .int 1), ("orders", .array [])],
    fits_newName rfl (by decide), readsBack_rereading "ID", rfl, rfl, rfl, rfl⟩

end Action

end ParamQuery
