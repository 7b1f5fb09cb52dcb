import ParamQuery.Proofs.Projection
import ParamQuery.Proofs.Read.Outcome
import ParamQuery.Proofs.Selection

/-!
# The columns of a read

The names in the rows that a read gives back: those of the columns that were read, without the ones
that only relations needed, and those of the relations loaded. For a request to an endpoint these
are on its list of fields, unless the request names no column at all.

## Main definitions

* `Endpoint.ShowsUnlisted` — an endpoint shows a name that is not on its list.

## Main statements

* `Action.mem_keys_of_answer` — the names in the rows of a read.
* `Action.keys_within_allow_list` — the names that the requests of an endpoint show.
-/

namespace ParamQuery

/-! ## Helper columns -/

/-- The columns to read are those asked for, then the helpers. -/
theorem addHelpers_fst (ws : List Wanted) (columns : List String) :
    (addHelpers ws columns).1 = columns ++ (addHelpers ws columns).2 := by
  induction ws generalizing columns with
  | nil => simp [addHelpers]
  | cons w rest ih =>
    unfold addHelpers
    split
    · exact ih columns
    · simp [ih (columns ++ [w.relation.parentColumn])]

/-- A helper is the key column of a relation. -/
theorem exists_of_mem_addHelpers {ws : List Wanted} {columns : List String} {helper : String}
    (h : helper ∈ (addHelpers ws columns).2) : ∃ w ∈ ws, w.relation.parentColumn = helper := by
  induction ws generalizing columns with
  | nil => cases h
  | cons w rest ih =>
    unfold addHelpers at h
    split at h
    · obtain ⟨w', hw', hhelper⟩ := ih h
      exact ⟨w', List.mem_cons_of_mem _ hw', hhelper⟩
    · rcases List.mem_cons.1 h with rfl | h
      · exact ⟨w, List.mem_cons_self, rfl⟩
      · obtain ⟨w', hw', hhelper⟩ := ih h
        exact ⟨w', List.mem_cons_of_mem _ hw', hhelper⟩

/-- No helper was asked for. -/
theorem notMem_of_mem_addHelpers {ws : List Wanted} {columns : List String} {helper : String}
    (h : helper ∈ (addHelpers ws columns).2) : helper ∉ columns := by
  induction ws generalizing columns with
  | nil => cases h
  | cons w rest ih =>
    unfold addHelpers at h
    split at h
    · exact ih h
    · next hnew =>
      rcases List.mem_cons.1 h with rfl | h
      · rwa [List.contains_iff_mem] at hnew
      · exact fun hmem => ih h (List.mem_append_left _ hmem)

/-- The key column of every relation is read. -/
theorem parentColumn_mem_addHelpers {ws : List Wanted} {w : Wanted} (hw : w ∈ ws)
    (columns : List String) : w.relation.parentColumn ∈ (addHelpers ws columns).1 := by
  induction ws generalizing columns with
  | nil => cases hw
  | cons first rest ih =>
    unfold addHelpers
    rcases List.mem_cons.1 hw with rfl | hw
    · split
      · next hmem =>
        rw [addHelpers_fst]
        exact List.mem_append_left _ (List.contains_iff_mem.1 hmem)
      · dsimp only
        rw [addHelpers_fst]
        simp
    · split
      · exact ih hw columns
      · exact ih hw _

theorem Action.keys_withoutHelpers (helpers : List String) (entity : Entity) :
    (withoutHelpers helpers entity).keys = entity.keys.filter fun key => key ∉ helpers := by
  unfold withoutHelpers
  induction helpers generalizing entity with
  | nil => simp
  | cons helper rest ih =>
    rw [List.foldl_cons, ih, OrderedMap.keys_erase, List.filter_filter]
    simp only [List.mem_cons, not_or, Bool.decide_and, Bool.and_comm]

theorem Action.mem_keys_withoutHelpers {helpers : List String} {entity : Entity} {key : String} :
    key ∈ (withoutHelpers helpers entity).keys ↔ key ∈ entity.keys ∧ key ∉ helpers := by
  rw [keys_withoutHelpers, List.mem_filter, decide_eq_true_iff]

theorem Table.mem_keys_shown {t : Table} {columns : List (Nat × Column)} {row : Row}
    {key : String} :
    key ∈ (t.shown columns row).keys ↔
      key ≠ totalColumn ∧ ∃ entry ∈ t.returned columns, entry.2.name = key := by
  rw [shown, OrderedMap.keys_erase, List.mem_filter, Record.mem_keys_entity, project_eq]
  simp [and_comm]

/-! ## The names in the rows of a read -/

namespace Action

/-- The names in the rows of a read: those of the columns that were read and of the relations
loaded, without the helpers. -/
theorem mem_keys_of_answer {m : Model} {intent : QueryIntent} {caps : Capabilities}
    {db : Database} {e : Envelope} (h : (read m intent caps).answer db = .ok e) :
    ∃ wanted t columns, wantedRelations m intent.fields caps = .ok wanted ∧
      db.table m.table = .ok t ∧
      (readColumns intent caps wanted).1.mapM t.column = .ok columns ∧
      ∀ entity ∈ e.collection, ∀ key, key ∈ entity.keys ↔
        ((key ≠ totalColumn ∧ ∃ entry ∈ t.returned columns, entry.2.name = key) ∨
          ∃ w ∈ wanted, w.relation.name = key) ∧ key ∉ (readColumns intent caps wanted).2 := by
  obtain ⟨wanted, t, columns, sorts, rows, n, page, hwanted, hfinds, _, hpage, rfl⟩ :=
    answer_read_iff.1 h
  refine ⟨wanted, t, columns, hwanted, hfinds.table, hfinds.columns, ?_⟩
  intro entity hentity key
  obtain ⟨nested, hnested, rfl⟩ := List.mem_map.1 hentity
  obtain ⟨before, hbefore, hkeys⟩ :=
    exists_mem_left_of_forall₂ (keys_of_answer_attachAll hpage) hnested
  obtain ⟨row, _, rfl⟩ := List.mem_map.1 hbefore
  rw [mem_keys_withoutHelpers, hkeys, Table.mem_keys_shown]

end Action

/-! ## The features of an endpoint -/

theorem Capabilities.contains_ofList {list : List Capability} {c : Capability} :
    (ofList list).contains c = true ↔ c ∈ list := by
  have hfold (caps : Capabilities) :
      (list.foldl insert caps).contains c = true ↔ caps.contains c = true ∨ c ∈ list := by
    induction list generalizing caps with
    | nil => simp
    | cons d rest ih =>
      rw [List.foldl_cons, ih, contains_insert, Bool.or_eq_true, beq_iff_eq, List.mem_cons]
      rw [eq_comm]
      tauto
  rw [ofList, hfold]
  cases c <;> simp [empty, contains]

namespace EndpointSchema

variable {schema : EndpointSchema} {allow : FieldAllowList}

theorem contains_fields (h : schema.fields = some allow) :
    schema.capabilities.contains .fields = true := by
  have hdeclared : Capability.fields ∈ schema.declared := by
    simp [declared, h]
  unfold capabilities
  split
  · rw [Capabilities.contains_insert, Capabilities.contains_ofList.2 hdeclared, Bool.or_true]
  · exact Capabilities.contains_ofList.2 hdeclared

/-- Relations are loaded if there are any on the list of fields. -/
theorem contains_relations (h : schema.fields = some allow) {name : String}
    (hname : name ∈ allow.relations.keys) : schema.capabilities.contains .relations = true := by
  have hany : (schema.fields.any fun allow => !allow.relations.isEmpty) = true := by
    have hne : allow.relations.entries ≠ [] := by
      intro hnil
      simp [OrderedMap.keys, hnil] at hname
    simpa [h, OrderedMap.isEmpty] using hne
  rw [capabilities, if_pos hany, Capabilities.contains_insert]
  rfl

end EndpointSchema

/-- The relations loaded have the names asked for, in this order, if the feature is switched on. -/
theorem map_name_of_wantedRelations {m : Model} {selection : FieldSelection} {caps : Capabilities}
    {wanted : List Wanted} (h : wantedRelations m selection caps = .ok wanted) :
    wanted.map (fun w => w.relation.name) =
      if caps.contains .relations then selection.relations.keys else [] := by
  unfold wantedRelations at h
  split at h
  · next hcaps =>
    have hnames : List.Forall₂ Eq (wanted.map fun w => w.relation.name)
        (selection.relations.entries.map Prod.fst) := by
      rw [List.forall₂_map_left_iff, List.forall₂_map_right_iff]
      apply (Model.resolveAll_eq_ok_iff.1 h).flip.imp
      intro w entry hentry
      exact Model.name_of_relation? hentry.1
    rw [List.forall₂_eq_eq_eq] at hnames
    rw [if_pos hcaps]
    exact hnames
  · next hcaps =>
    rw [if_neg hcaps]
    cases h
    rfl

/-- The relations loaded are those asked for, if the feature is switched on. -/
theorem exists_wanted_iff {m : Model} {selection : FieldSelection} {caps : Capabilities}
    {wanted : List Wanted} (h : wantedRelations m selection caps = .ok wanted)
    (hcaps : ∀ name ∈ selection.relations.keys, caps.contains .relations = true) {key : String} :
    (∃ w ∈ wanted, w.relation.name = key) ↔ key ∈ selection.relations.keys := by
  have hnames := map_name_of_wantedRelations h
  rw [← List.mem_map, hnames]
  split
  · rfl
  · next hoff => simpa using fun hkey => hoff (hcaps key hkey)

/-! ## The names that an endpoint shows -/

/-- A name in a row comes from a column that was asked for or from a helper, if any was asked
for. -/
theorem Table.exists_name_of_mem_returned {t : Table} {names : List String}
    {columns : List (Nat × Column)} (hcolumns : names.mapM t.column = .ok columns)
    (hnames : names ≠ []) {entry : Nat × Column} (hentry : entry ∈ t.returned columns) :
    ∃ name ∈ names, t.column name = .ok entry := by
  rw [returned_eq_self hcolumns hnames] at hentry
  exact exists_mem_left_of_forall₂ (mapM_eq_ok_iff.1 hcolumns) hentry

/-- All columns of a table have their names in an answer that names none. -/
theorem Table.exists_returned_nil {t : Table} {key : String} :
    (∃ entry ∈ t.returned [], entry.2.name = key) ↔ ∃ column ∈ t.columns, column.name = key := by
  constructor
  · rintro ⟨entry, hentry, rfl⟩
    exact ⟨entry.2, List.mem_of_getElem? (mem_returned_nil.1 hentry), rfl⟩
  · rintro ⟨column, hcolumn, rfl⟩
    obtain ⟨index, hindex⟩ := List.mem_iff_getElem?.1 hcolumn
    exact ⟨(index, column), mem_returned_nil.2 hindex, rfl⟩

namespace Action

/-- What the requests of an endpoint with a list of fields show, if no filter key is called like the
parameter for fields. A request that names a column gets columns and relations on the list, a column
in the spelling of the table; the key column of a relation can only show if the model spells it in
another way than the table. A request that names no column gets all columns of the table, with its
relations. -/
theorem keys_within_allow_list {config : Config} {schema : EndpointSchema} {endpoint : Endpoint}
    {allow : FieldAllowList} {params : Params} {intent : QueryIntent} {m : Model} {s : Session}
    {e : Envelope} (hcreate : Endpoint.create config schema = .ok endpoint)
    (hallow : schema.fields = some allow) (hfilter : "fields" ∉ schema.filterKeys)
    (hcompile : endpoint.compile .get params = .ok intent)
    (h : (read m intent endpoint.capabilities s).1 = .ok e) :
    ∃ t, s.database.table m.table = .ok t ∧
      (∀ name ∈ intent.fields.relations.keys, name ∈ allow.relations.keys) ∧
      (intent.fields.select ≠ [] → ∀ entity ∈ e.collection, ∀ key ∈ entity.keys,
        key ∈ intent.fields.relations.keys ∨
        (∃ name ∈ allow.columns, ∃ index column, t.column name = .ok (index, column) ∧
          column.name = key) ∨
        ∃ r ∈ m.relations, r.name ∈ intent.fields.relations.keys ∧
          ∃ index column, t.column r.parentColumn = .ok (index, column) ∧ column.name = key ∧
            column.name ≠ r.parentColumn) ∧
      (intent.fields.select = [] → ∀ entity ∈ e.collection, ∀ key, key ∈ entity.keys ↔
        key ∈ intent.fields.relations.keys ∨
          key ≠ totalColumn ∧ ∃ column ∈ t.columns, column.name = key) := by
  obtain rfl := Endpoint.eq_of_create hcreate
  have hcovers : allow.Covers intent.fields := Endpoint.covers_of_compile hallow hfilter hcompile
  rw [(reads_read m intent _ s).1] at h
  obtain ⟨wanted, t, columns, hwanted, ht, hcolumns, hkeys⟩ := mem_keys_of_answer h
  have hrelations (key : String) :
      (∃ w ∈ wanted, w.relation.name = key) ↔ key ∈ intent.fields.relations.keys :=
    exists_wanted_iff hwanted fun name hname =>
      EndpointSchema.contains_relations hallow (hcovers.mem_relations hname)
  refine ⟨t, ht, ?_, ?_, ?_⟩
  · intro name hname
    exact hcovers.mem_relations hname
  · intro hselect entity hentity key hkey
    have hread : readColumns intent (Endpoint.capabilities ⟨config, schema⟩) wanted =
        addHelpers wanted intent.fields.select := by
      rw [readColumns, Endpoint.capabilities, EndpointSchema.contains_fields hallow]
      simp [hselect]
    rw [hread, addHelpers_fst] at hcolumns
    rw [hkeys entity hentity, hrelations, hread] at hkey
    obtain ⟨⟨_, ⟨index, column⟩, hentry, rfl⟩ | hrelation, hhelper⟩ := hkey
    · obtain ⟨name, hname, hcolumn⟩ := Table.exists_name_of_mem_returned hcolumns
        (List.append_ne_nil_of_left_ne_nil hselect _) hentry
      rcases List.mem_append.1 hname with hname | hname
      · exact .inr (.inl ⟨name, hcovers.columns name hname, index, column, hcolumn, rfl⟩)
      · -- a helper is taken out again, unless its column is called otherwise
        obtain ⟨w, hw, rfl⟩ := exists_of_mem_addHelpers hname
        obtain ⟨_, hmem⟩ := mem_relations_of_wantedRelations hwanted hw
        have hne : column.name ≠ w.relation.parentColumn := fun heq => hhelper (heq ▸ hname)
        exact .inr (.inr ⟨w.relation, hmem, (hrelations _).1 ⟨w, hw, rfl⟩, index, column, hcolumn,
          rfl, hne⟩)
    · exact .inl hrelation
  · intro hselect entity hentity key
    have hread : readColumns intent (Endpoint.capabilities ⟨config, schema⟩) wanted = ([], []) := by
      simp [readColumns, hselect]
    rw [hread] at hcolumns
    obtain rfl : [] = columns := Except.ok.inj hcolumns
    rw [hkeys entity hentity, hrelations, hread, Table.exists_returned_nil]
    simp [or_comm]

end Action

/-- One account, and the name of its key column. -/
def accounts (key : String) : Table where
  name := "accounts"
  columns := [⟨key, .integer⟩, ⟨"name", .varchar⟩, ⟨"fields", .varchar⟩, ⟨"username", .varchar⟩]
  rows := [[.integer 1, .text "Anna", .text "userName", .text "secret"]]

/-- Payments for the account. -/
def payments : Table where
  name := "payments"
  columns := [⟨"id", .integer⟩, ⟨"account_id", .integer⟩, ⟨"total", .integer⟩]
  rows := [[.integer 7, .integer 1, .integer 50]]

/-- A request for a column and a relation shows these two, and not the key column of the relation,
which is not on the list. -/
theorem keys_of_account :
    ∃ e, (Action.read
        { table := "accounts", relations := [.hasMany "payments" "payments" "account_id"] }
        { fields := ⟨["name"], .ofList [("payments", ["total"])]⟩, pagination := ⟨20, 0⟩ }
        { fields := true, relations := true }
        { database := { tables := [accounts "id", payments] } }).1 = .ok e ∧
      e.total = 1 ∧ ∀ entity ∈ e.collection, ∀ key ∈ OrderedMap.keys entity,
        key = "payments" ∨ key = "name" := by
  obtain ⟨t, ht, _, hkeys, _⟩ := @Action.keys_within_allow_list {}
    { fields := some ⟨["name"], .ofList [("payments", ["total"])]⟩ } _ _
    (.ofList [("fields", .single "payments.total,name")])
    { fields := ⟨["name"], .ofList [("payments", ["total"])]⟩, pagination := ⟨20, 0⟩ }
    { table := "accounts", relations := [.hasMany "payments" "payments" "account_id"] }
    { database := { tables := [accounts "id", payments] } }
    ⟨1, [.ofList [("name", .string "Anna"), ("payments", .array [.object [("total", .int 50)]])]],
      1, 0⟩ rfl rfl (by decide) rfl rfl
  cases ht
  refine ⟨_, rfl, rfl, ?_⟩
  intro entity hentity key hkey
  obtain hrelation | ⟨name, hname, _, _, hcolumn, rfl⟩ | ⟨r, hr, _, _, _, hcolumn, _, hne⟩ :=
    hkeys (by decide) entity hentity key hkey
  · exact .inl (List.mem_singleton.1 hrelation)
  · rw [List.mem_singleton.1 hname] at hcolumn
    cases hcolumn
    exact .inr rfl
  · rw [List.mem_singleton.1 hr] at hcolumn hne
    cases hcolumn
    exact absurd rfl hne

/-- An endpoint shows a name that is neither a column nor a relation on its list of fields. -/
def Endpoint.ShowsUnlisted (schema : EndpointSchema) (params : Params) (m : Model) (s : Session) :
    Prop :=
  ∃ endpoint allow intent e, ∃ entity : Entity, ∃ key : String,
    Endpoint.create {} schema = .ok endpoint ∧
    schema.fields = some allow ∧ endpoint.compile .get params = .ok intent ∧
    (Action.read m intent endpoint.capabilities s).1 = .ok e ∧ entity ∈ e.collection ∧
    key ∈ entity.keys ∧ key ∉ allow.columns ∧ key ∉ allow.relations.keys

/-- Three ways past the list: a request for relations alone, a filter key called like the parameter
for fields, and a relation that spells its key column in another way than the table. -/
theorem showsUnlisted :
    Endpoint.ShowsUnlisted { fields := some ⟨["id", "name"], .ofList [("payments", ["total"])]⟩ }
      (.ofList [("fields", .single "payments.total")])
      { table := "accounts", relations := [.hasMany "payments" "payments" "account_id"] }
      { database := { tables := [accounts "id", payments] } } ∧
    Endpoint.ShowsUnlisted { fields := some ⟨["user_name"], ∅⟩, filter := some ["fields"] }
      (.ofList [("fields", .single "userName")]) { table := "accounts" }
      { database := { tables := [accounts "id"] } } ∧
    Endpoint.ShowsUnlisted { fields := some ⟨["name"], .ofList [("payments", ["total"])]⟩ }
      (.ofList [("fields", .single "name,payments.total")])
      { table := "accounts", relations := [.hasMany "payments" "payments" "account_id"] }
      { database := { tables := [accounts "ID", payments] } } := by
  refine ⟨?_, ?_, ?_⟩
  · refine ⟨⟨{}, _⟩, _,
      { fields := ⟨[], .ofList [("payments", ["total"])]⟩, pagination := ⟨20, 0⟩ },
      ⟨1, [.ofList [("id", .int 1), ("name", .string "Anna"), ("fields", .string "userName"),
        ("username", .string "secret"), ("payments", .array [.object [("total", .int 50)]])]],
        1, 0⟩, _, "username", rfl, rfl, rfl, rfl, List.mem_cons_self, ?_, ?_, ?_⟩ <;> decide
  · refine ⟨⟨{}, _⟩, _,
      { fields := ⟨["userName"], ∅⟩
        filter := { base := FilterBuckets.insert {} .eq "fields" "userName" }
        pagination := ⟨20, 0⟩ },
      ⟨1, [.ofList [("username", .string "secret")]], 1, 0⟩, _, "username", rfl, rfl, rfl, rfl,
      List.mem_cons_self, ?_, ?_, ?_⟩ <;> decide
  · refine ⟨⟨{}, _⟩, _,
      { fields := ⟨["name"], .ofList [("payments", ["total"])]⟩, pagination := ⟨20, 0⟩ },
      ⟨1, [.ofList [("name", .string "Anna"), ("ID", .int 1), ("payments", .array [])]], 1, 0⟩, _,
      "ID", rfl, rfl, rfl, rfl, List.mem_cons_self, ?_, ?_, ?_⟩ <;> decide

end ParamQuery
