import ParamQuery.Proofs.Read.Columns
import ParamQuery.Proofs.Read.Nesting

/-!
# The shape of the rows of a read

Which names stand in the rows of a read that names columns and relations: those of the columns, as
the table spells them, and those of the relations, under which related rows are nested. The key
columns that only relations needed are taken out again by the names that the model has for them.

## Main definitions

* `Table.Calls` — what the table calls the column that a name means.
* `QueryIntent.Helper` — a key column that is read only to load a relation.

## Main statements

* `mem_addHelpers_iff` — the columns that are added to those asked for.
* `Wanted.nestsRows_of_answer_attachAll` — all relations of a page are nested.
* `Action.shape_of_read` — the names in the rows of a read, and what stands under the relations.
-/

namespace ParamQuery

/-- What the table calls the column that a name means. -/
def Table.Calls (t : Table) (name key : String) : Prop :=
  ∃ index column, t.column name = .ok (index, column) ∧ column.name = key

/-- A column that was not asked for is the key column of a relation that was. -/
def QueryIntent.Helper (intent : QueryIntent) (m : Model) (name : String) : Prop :=
  name ∉ intent.fields.select ∧ ∃ relation ∈ intent.fields.relations.keys, ∃ r,
    m.relation? relation = some r ∧ r.parentColumn = name

/-! ## Helpers -/

/-- The columns that are added to those asked for are the key columns of relations that were not
asked for. -/
theorem mem_addHelpers_iff {ws : List Wanted} {columns : List String} {helper : String} :
    helper ∈ (addHelpers ws columns).2 ↔
      helper ∉ columns ∧ ∃ w ∈ ws, w.relation.parentColumn = helper := by
  constructor
  · exact fun h => ⟨notMem_of_mem_addHelpers h, exists_of_mem_addHelpers h⟩
  · rintro ⟨hnew, w, hw, rfl⟩
    have hmem := parentColumn_mem_addHelpers hw columns
    rw [addHelpers_fst, List.mem_append] at hmem
    exact hmem.resolve_left hnew

/-- A read that names columns reads these and the helpers. -/
theorem readColumns_of_select {intent : QueryIntent} {caps : Capabilities} {wanted : List Wanted}
    (hfields : caps.contains .fields = true) (hselect : intent.fields.select ≠ []) :
    readColumns intent caps wanted = addHelpers wanted intent.fields.select := by
  rw [readColumns, hfields]
  simp [hselect]

/-- The relations loaded are those of the model with the names asked for. -/
theorem exists_wanted_relation_iff {m : Model} {selection : FieldSelection} {caps : Capabilities}
    {wanted : List Wanted} (hcaps : caps.contains .relations = true)
    (h : wantedRelations m selection caps = .ok wanted) {r : Relation} :
    (∃ w ∈ wanted, w.relation = r) ↔
      ∃ name ∈ selection.relations.keys, m.relation? name = some r := by
  rw [wantedRelations, if_pos hcaps] at h
  have hforall := Model.resolveAll_eq_ok_iff.1 h
  constructor
  · rintro ⟨w, hw, rfl⟩
    obtain ⟨entry, hentry, hrelation, _⟩ := exists_mem_left_of_forall₂ hforall hw
    exact ⟨entry.1, List.mem_map_of_mem hentry, hrelation⟩
  · rintro ⟨_, hname, hrelation⟩
    obtain ⟨entry, hentry, rfl⟩ := List.mem_map.1 hname
    obtain ⟨w, hw, hrelation', _⟩ := exists_mem_right_of_forall₂ hforall hentry
    exact ⟨w, hw, Option.some.inj (hrelation'.symm.trans hrelation)⟩

/-- The names in an answer that names columns are those that the table has for them. -/
theorem Table.exists_returned_iff {t : Table} {names : List String} {columns : List (Nat × Column)}
    (hcolumns : names.mapM t.column = .ok columns) (hnames : names ≠ []) {key : String} :
    (∃ entry ∈ t.returned columns, entry.2.name = key) ↔ ∃ name ∈ names, t.Calls name key := by
  constructor
  · rintro ⟨⟨index, column⟩, hentry, rfl⟩
    obtain ⟨name, hname, hcolumn⟩ := exists_name_of_mem_returned hcolumns hnames hentry
    exact ⟨name, hname, index, column, hcolumn, rfl⟩
  · rintro ⟨name, hname, index, column, hcolumn, rfl⟩
    obtain ⟨entry, hentry, hcolumn'⟩ :=
      exists_mem_right_of_forall₂ (mapM_eq_ok_iff.1 hcolumns) hname
    cases hcolumn.symm.trans hcolumn'
    exact ⟨_, returned_eq_self hcolumns hnames ▸ hentry, rfl⟩

/-! ## Relations -/

namespace Wanted

/-- Under the name of every relation that was loaded stands what its kind nests of some rows; of two
relations with one name this is what the last one nests. -/
theorem nestsRows_of_answer_attachAll {filter : Wanted → Option FilterBuckets} {ws : List Wanted}
    {page result : List Entity} {db : Database} {name : String}
    (h : (attachAll filter ws page).answer db = .ok result) {entity : Entity}
    (hentity : entity ∈ result) (hname : ∃ w ∈ ws, w.relation.name = name) :
    ∃ w ∈ ws, w.relation.name = name ∧
      ∃ rows value, entity.get? name = some value ∧ w.relation.kind.NestsRows rows value := by
  obtain ⟨w, hw, hcalled, _, _, _, _, hvalue⟩ :=
    exists_nested_of_answer_attachAll h hentity hname
  exact ⟨w, hw, hcalled, _, _, hvalue, w.nestsRows_nested _⟩

end Wanted

namespace Action

variable {m : Model} {intent : QueryIntent} {caps : Capabilities} {s : Session} {e : Envelope}

/-- Every relation that was loaded is nested in every row of a read, unless it is called like a
helper. -/
theorem nestsRows_of_answer {db : Database} {wanted : List Wanted} {name : String}
    (hwanted : wantedRelations m intent.fields caps = .ok wanted)
    (h : (read m intent caps).answer db = .ok e) {entity : Entity} (hentity : entity ∈ e.collection)
    (hname : ∃ w ∈ wanted, w.relation.name = name)
    (hhelper : name ∉ (readColumns intent caps wanted).2) :
    ∃ w ∈ wanted, w.relation.name = name ∧
      ∃ rows value, entity.get? name = some value ∧ w.relation.kind.NestsRows rows value := by
  obtain ⟨wanted', t, columns, sorts, rows, n, page, hwanted', _, _, hpage, rfl⟩ :=
    answer_read_iff.1 h
  obtain rfl : wanted = wanted' := Except.ok.inj (hwanted.symm.trans hwanted')
  obtain ⟨nested, hnested, rfl⟩ := List.mem_map.1 hentity
  rw [get?_withoutHelpers, if_neg hhelper]
  exact Wanted.nestsRows_of_answer_attachAll hpage hnested hname

variable {wanted : List Wanted}

/-- The columns that a read takes out again are the helpers of its intent. -/
theorem mem_helpers_iff (hfields : caps.contains .fields = true)
    (hrelations : caps.contains .relations = true) (hselect : intent.fields.select ≠ [])
    (hwanted : wantedRelations m intent.fields caps = .ok wanted) {name : String} :
    name ∈ (readColumns intent caps wanted).2 ↔ intent.Helper m name := by
  have hrelation (r : Relation) := exists_wanted_relation_iff hrelations hwanted (r := r)
  rw [readColumns_of_select hfields hselect, mem_addHelpers_iff]
  refine and_congr_right fun _ => ?_
  constructor
  · rintro ⟨w, hw, rfl⟩
    obtain ⟨relation, hmem, hr⟩ := (hrelation w.relation).1 ⟨w, hw, rfl⟩
    exact ⟨relation, hmem, w.relation, hr, rfl⟩
  · rintro ⟨relation, hmem, r, hr, rfl⟩
    obtain ⟨w, hw, rfl⟩ := (hrelation r).2 ⟨relation, hmem, hr⟩
    exact ⟨w, hw, rfl⟩

/-- The names in the rows of a read that names columns and relations: those of the relations and
those that the table has for the columns asked for and for the helpers, but no name of a helper. -/
theorem mem_keys_iff_of_answer {db : Database} (hfields : caps.contains .fields = true)
    (hrelations : caps.contains .relations = true) (hselect : intent.fields.select ≠ [])
    (h : (read m intent caps).answer db = .ok e) :
    ∃ t, db.table m.table = .ok t ∧ ∀ entity ∈ e.collection, ∀ key, key ∈ entity.keys ↔
      ¬ intent.Helper m key ∧ (key ∈ intent.fields.relations.keys ∨ key ≠ totalColumn ∧
        ∃ name, (name ∈ intent.fields.select ∨ intent.Helper m name) ∧ t.Calls name key) := by
  obtain ⟨wanted, t, columns, hwanted, ht, hcolumns, hkeys⟩ := mem_keys_of_answer h
  have hhelper (name : String) :
      name ∈ (readColumns intent caps wanted).2 ↔ intent.Helper m name :=
    mem_helpers_iff hfields hrelations hselect hwanted
  refine ⟨t, ht, fun entity hentity key => ?_⟩
  rw [hkeys entity hentity, hhelper, exists_wanted_iff hwanted fun _ _ => hrelations]
  simp only [readColumns_of_select hfields hselect, addHelpers_fst] at hcolumns hhelper
  rw [Table.exists_returned_iff hcolumns (List.append_ne_nil_of_left_ne_nil hselect _), and_comm,
    or_comm]
  simp only [List.mem_append, hhelper]

/-- Every relation that was asked for is nested in every row of a read, unless it is called like a
helper. -/
theorem nestsRows_of_requested {db : Database} {name : String}
    (hfields : caps.contains .fields = true) (hrelations : caps.contains .relations = true)
    (hselect : intent.fields.select ≠ []) (h : (read m intent caps).answer db = .ok e)
    {entity : Entity} (hentity : entity ∈ e.collection)
    (hname : name ∈ intent.fields.relations.keys) (hhelper : ¬ intent.Helper m name) :
    ∃ r rows value, m.relation? name = some r ∧ entity.get? name = some value ∧
      r.kind.NestsRows rows value := by
  obtain ⟨wanted, _, _, hwanted, _⟩ := mem_keys_of_answer h
  have hloaded := (exists_wanted_iff hwanted fun _ _ => hrelations).2 hname
  obtain ⟨w, hw, rfl, rows, value, hvalue, hnests⟩ := nestsRows_of_answer hwanted h hentity
    hloaded (mt (mem_helpers_iff hfields hrelations hselect hwanted).1 hhelper)
  obtain ⟨relation, _, hr⟩ := (exists_wanted_relation_iff hrelations hwanted).1 ⟨w, hw, rfl⟩
  rw [Model.name_of_relation? hr] at hvalue ⊢
  exact ⟨w.relation, rows, value, hr, hvalue, hnests⟩

/-- If the columns asked for and the helpers are spelled as the table does, the names left are the
columns and those relations that are not called like a helper. -/
theorem asked_iff_of_spelled {t : Table} (htotal : totalColumn ∉ intent.fields.select)
    (hspelled : ∀ name, name ∈ intent.fields.select ∨ intent.Helper m name → t.Calls name name)
    {key : String} :
    (¬ intent.Helper m key ∧ (key ∈ intent.fields.relations.keys ∨ key ≠ totalColumn ∧
      ∃ name, (name ∈ intent.fields.select ∨ intent.Helper m name) ∧ t.Calls name key)) ↔
    key ∈ intent.fields.select ∨ key ∈ intent.fields.relations.keys ∧ ¬ intent.Helper m key := by
  constructor
  · rintro ⟨hhelper, hkey | ⟨_, name, hname, _, column, hcolumn, rfl⟩⟩
    · exact .inr ⟨hkey, hhelper⟩
    · obtain ⟨_, _, hcolumn', hcalls⟩ := hspelled name hname
      cases hcolumn.symm.trans hcolumn'
      rw [hcalls] at hhelper ⊢
      exact .inl (hname.resolve_right hhelper)
  · rintro (hkey | ⟨hkey, hhelper⟩)
    · have hcalls := hspelled key (.inl hkey)
      have hne : key ≠ totalColumn := fun heq => htotal (heq ▸ hkey)
      exact ⟨fun hhelper => hhelper.1 hkey, .inr ⟨hne, key, .inl hkey, hcalls⟩⟩
    · exact ⟨hhelper, .inl hkey⟩

/-- What stands in the rows of a read that names columns and relations. Every relation is there,
with what its kind nests, but one that is called like a helper is taken out again with it. The other
names are those that the table has for the columns asked for; of the helpers only one that the model
spells in another way than the table stays, under the name that the table has for it. The name of
the total never stays. So the names are just those asked for, if they and the helpers are spelled as
the table does, without the relations that are called like a helper. -/
theorem shape_of_read (hfields : caps.contains .fields = true)
    (hrelations : caps.contains .relations = true) (hselect : intent.fields.select ≠ [])
    (h : (read m intent caps s).1 = .ok e) :
    ∃ t, s.database.table m.table = .ok t ∧
      (∀ entity ∈ e.collection,
        (∀ name ∈ intent.fields.relations.keys, ¬ intent.Helper m name →
          ∃ r rows value, m.relation? name = some r ∧ entity.get? name = some value ∧
            r.kind.NestsRows rows value) ∧
        ∀ key, key ∈ entity.keys ↔ ¬ intent.Helper m key ∧
          (key ∈ intent.fields.relations.keys ∨ key ≠ totalColumn ∧
            ∃ name, (name ∈ intent.fields.select ∨ intent.Helper m name) ∧ t.Calls name key)) ∧
      (totalColumn ∉ intent.fields.select →
        (∀ name, name ∈ intent.fields.select ∨ intent.Helper m name → t.Calls name name) →
        ∀ entity ∈ e.collection, ∀ key, key ∈ entity.keys ↔
          key ∈ intent.fields.select ∨
            key ∈ intent.fields.relations.keys ∧ ¬ intent.Helper m key) := by
  rw [(reads_read m intent caps s).1] at h
  obtain ⟨t, ht, hkeys⟩ := mem_keys_iff_of_answer hfields hrelations hselect h
  refine ⟨t, ht, fun entity hentity => ⟨fun name hname hhelper => ?_, hkeys entity hentity⟩,
    fun htotal hspelled entity hentity key => ?_⟩
  · exact nestsRows_of_requested hfields hrelations hselect h hentity hname hhelper
  · rw [hkeys entity hentity, asked_iff_of_spelled htotal hspelled]

end Action

/-- One article, and the name of the column for its author. -/
def articles (key : String) : Table where
  name := "articles"
  columns := [⟨"id", .integer⟩, ⟨"title", .varchar⟩, ⟨key, .integer⟩]
  rows := [[.integer 1, .text "Tides", .integer 7]]

/-- The author of the article. -/
def authors : Table where
  name := "authors"
  columns := [⟨"id", .integer⟩, ⟨"name", .varchar⟩]
  rows := [[.integer 7, .text "Anna"]]

/-- Articles with a relation to their author, with its name and its key column. -/
def articleModel (relation key : String) : Model where
  table := "articles"
  relations := [.belongsTo relation "authors" key]

/-- A read of one column and the author has these two names in its row, and not that of the key
column. -/
theorem shape_of_article :
    ∃ e, (Action.read (articleModel "writer" "author")
        { fields := ⟨["title"], .ofList [("writer", ["name"])]⟩, pagination := ⟨20, 0⟩ }
        { fields := true, relations := true }
        { database := { tables := [articles "author", authors] } }).1 = .ok e ∧
      e.total = 1 ∧ ∀ entity ∈ e.collection, ∀ key, key ∈ OrderedMap.keys entity ↔
        key = "title" ∨ key = "writer" := by
  have hhelper (name : String) : QueryIntent.Helper
      { fields := ⟨["title"], .ofList [("writer", ["name"])]⟩, pagination := ⟨20, 0⟩ }
      (articleModel "writer" "author") name → name = "author" := by
    rintro ⟨_, relation, hmem, r, hr, rfl⟩
    rw [List.mem_singleton.1 hmem] at hr
    cases hr
    rfl
  obtain ⟨t, ht, _, hkeys⟩ := @Action.shape_of_read (articleModel "writer" "author")
    { fields := ⟨["title"], .ofList [("writer", ["name"])]⟩, pagination := ⟨20, 0⟩ }
    { fields := true, relations := true }
    { database := { tables := [articles "author", authors] } }
    ⟨1, [.ofList [("title", .string "Tides"), ("writer", .object [("name", .string "Anna")])]],
      1, 0⟩ rfl rfl (by decide) rfl
  cases ht
  refine ⟨_, rfl, rfl, fun entity hentity key => ?_⟩
  rw [hkeys (by decide) ?_ entity hentity key]
  · refine or_congr List.mem_singleton ((and_iff_left_of_imp fun hkey h => ?_).trans
      List.mem_singleton)
    rw [List.mem_singleton.1 hkey] at h
    exact absurd (hhelper _ h) (by decide)
  · rintro name (hname | hname)
    · rw [List.mem_singleton.1 hname]
      exact ⟨1, ⟨"title", .varchar⟩, rfl, rfl⟩
    · rw [hhelper name hname]
      exact ⟨2, ⟨"author", .integer⟩, rfl, rfl⟩

/-- A read that names columns has a row with other names than those of its columns and relations. -/
def QueryIntent.Misshapes (intent : QueryIntent) (m : Model) (s : Session) : Prop :=
  intent.fields.select ≠ [] ∧ ∃ e, ∃ entity : Entity, ∃ key : String,
    (Action.read m intent { fields := true, relations := true } s).1 = .ok e ∧
    entity ∈ e.collection ∧
    ¬ (key ∈ entity.keys ↔ key ∈ intent.fields.select ∨ key ∈ intent.fields.relations.keys)

/-- Four rows with other names than those asked for: a column asked for in another spelling, a key
column that the model spells in another way than the table, a column called like the total, and a
relation called like its key column. -/
theorem misshapes :
    QueryIntent.Misshapes { fields := ⟨["TITLE"], ∅⟩, pagination := ⟨20, 0⟩ }
      (articleModel "writer" "author")
      { database := { tables := [articles "author", authors] } } ∧
    QueryIntent.Misshapes
      { fields := ⟨["title"], .ofList [("writer", ["name"])]⟩, pagination := ⟨20, 0⟩ }
      (articleModel "writer" "AUTHOR")
      { database := { tables := [articles "author", authors] } } ∧
    QueryIntent.Misshapes { fields := ⟨["title", totalColumn], ∅⟩, pagination := ⟨20, 0⟩ }
      { table := "articles" } { database := { tables := [articles totalColumn] } } ∧
    QueryIntent.Misshapes
      { fields := ⟨["title"], .ofList [("author", ["name"])]⟩, pagination := ⟨20, 0⟩ }
      (articleModel "author" "author")
      { database := { tables := [articles "author", authors] } } := by
  refine ⟨⟨by decide, ?_⟩, ⟨by decide, ?_⟩, ⟨by decide, ?_⟩, ⟨by decide, ?_⟩⟩
  · exact ⟨⟨1, [.ofList [("title", .string "Tides")]], 1, 0⟩, _, "title", rfl,
      List.mem_cons_self, by decide⟩
  · exact ⟨⟨1, [.ofList [("title", .string "Tides"), ("author", .int 7),
        ("writer", .null)]], 1, 0⟩, _, "author", rfl, List.mem_cons_self, by decide⟩
  · exact ⟨⟨1, [.ofList [("title", .string "Tides")]], 1, 0⟩, _, totalColumn, rfl,
      List.mem_cons_self, by decide⟩
  · exact ⟨⟨1, [.ofList [("title", .string "Tides")]], 1, 0⟩, _, "author", rfl,
      List.mem_cons_self, by decide⟩

end ParamQuery
