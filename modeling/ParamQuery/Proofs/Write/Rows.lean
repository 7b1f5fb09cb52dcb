import ParamQuery.Proofs.Write.Assignment

/-!
# Changes to rows

What the statements that write do to the rows of their table. All other tables stay as they are,
and so does the table itself if the statement fails.

## Main definitions

* `Database.Rewrites` — the rows of one table change in some way, and nothing else does.
* `Table.Adds`, `Table.Changes`, `Table.Removes` — the rows after an insert, an update, a delete.

## Main statements

* `Database.rewrites_of_insertRow`, `Database.rewrites_of_updateRows`,
  `Database.rewrites_of_deleteRows` — what a statement that succeeds does to the rows.
* `Database.exists_of_updateRows` — the rows that an update returns.
-/

namespace ParamQuery

namespace Table

/-- A row that was added with values: they are in their columns, and the other columns are null, but
for a primary key that is numbered. -/
structure NewRow (t : Table) (values : List (String × String)) (row : Row) : Prop where
  length : row.length = t.columns.length
  written : ∀ value ∈ values, ∃ cell, t.StandsFor value cell ∧ row[cell.1]? = some cell.2
  rest : ∀ index, (∀ value ∈ values, t.index? value.1 ≠ some index) →
    row.cell index = .null ∨
      t.key.bind t.index? = some index ∧ ∃ n, row.cell index = .integer n

/-- One row with some values is added at the end. -/
def Adds (values : List (String × String)) (t : Table) (rows : List Row) : Prop :=
  ∃ row, t.NewRow values row ∧ rows = t.rows ++ [row]

/-- The rows with a key, at least one, are written over with some values. -/
structure Changes (keyColumn key : String) (values : List (String × String)) (t : Table)
    (rows : List Row) : Prop where
  rows : List.Forall₂ (fun row row' =>
    if t.compares row .eq keyColumn key = true then t.Overwrites values row row' else row' = row)
    t.rows rows
  exists_row : ∃ row ∈ t.rows, t.compares row .eq keyColumn key = true

/-- The rows with a key, at least one, are taken out. -/
structure Removes (keyColumn key : String) (t : Table) (rows : List Row) : Prop where
  rows : rows = t.rows.filter fun row => !t.compares row .eq keyColumn key
  exists_row : ∃ row ∈ t.rows, t.compares row .eq keyColumn key = true

/-! ## Rows with a key -/

variable {t : Table} {values : List (String × String)} {cells : List (Nat × Cell)}
  {keyColumn key : String} {tests : List Test} {chosen : List Bool}

/-- A statement chooses the rows with its key. -/
theorem chosen_eq (htests : [keyCondition keyColumn key].mapM t.test = .ok tests)
    (hchosen : t.rows.mapM (Test.allHold tests) = .ok chosen) :
    chosen = t.rows.map fun row => t.compares row .eq keyColumn key := by
  have hrow (row : Row) (b : Bool) (h : Test.allHold tests row = .ok b) :
      t.compares row .eq keyColumn key = b := by
    simpa [keyCondition, Condition.holds] using Condition.all_holds_eq htests h
  have hequal : List.Forall₂ Eq chosen
      (t.rows.map fun row => t.compares row .eq keyColumn key) := by
    rw [List.forall₂_map_right_iff]
    exact (mapM_eq_ok_iff.1 hchosen).flip.imp fun b row h => (hrow row b h).symm
  rwa [List.forall₂_eq_eq_eq] at hequal

theorem zip_map_self (p : Row → Bool) (rows : List Row) :
    rows.zip (rows.map p) = rows.map fun row => (row, p row) := by
  induction rows with
  | nil => rfl
  | cons row rest ih => rw [List.map_cons, List.zip_cons_cons, ih, List.map_cons]

/-- What a test picks out of the rows after a change, made before the change. -/
theorem map_fst_filter_zip (change : Row → Row) (p : Row → Bool) (rows : List Row) :
    (((rows.map change).zip (rows.map p)).filter Prod.snd).map Prod.fst =
      (rows.filter p).map change := by
  rw [List.zip_map', List.filter_map, List.map_map]
  rfl

/-! ## New rows -/

/-- Writing cells for values to a row of nulls, and a number to its key, makes a new row. -/
theorem newRow_assign (h : t.Assigns values cells) {numbered : Option (Nat × Int)}
    (hnumbered : ∀ entry ∈ numbered,
      t.key.bind t.index? = some entry.1 ∧ entry.1 ∉ cells.map Prod.fst) :
    t.NewRow values
      (assign (cells ++ (numbered.map fun entry => (entry.1, Cell.integer entry.2)).toList)
        (t.columns.map fun _ => .null)) := by
  have hblank (index : Nat) : Row.cell (t.columns.map fun _ => Cell.null) index = .null := by
    simp only [Row.cell, List.getElem?_map]
    cases t.columns[index]? <;> rfl
  have hnodup : ((cells ++ (numbered.map fun entry => (entry.1, Cell.integer entry.2)).toList).map
      Prod.fst).Nodup := by
    cases numbered with
    | none => simpa using h.distinct
    | some entry =>
      rw [List.map_append, List.nodup_append]
      refine ⟨h.distinct, by simp, ?_⟩
      rintro _ hindex _ hkey rfl
      obtain rfl : _ = entry.1 := by simpa using hkey
      exact (hnumbered entry rfl).2 hindex
  refine ⟨by rw [length_assign, List.length_map], ?_, ?_⟩
  · intro value hvalue
    obtain ⟨cell, hcell, hstands⟩ := exists_mem_right_of_forall₂ h.standFor hvalue
    obtain ⟨column, hcolumn, hread⟩ := hstands
    refine ⟨cell, ⟨column, hcolumn, hread⟩, getElem?_assign_of_mem hnodup (List.mem_append_left _ hcell) ?_⟩
    rw [List.length_map]
    exact lt_of_column_eq_ok hcolumn
  · intro index hindex
    have hcells := h.notMem hindex
    by_cases hkey : ∃ entry ∈ numbered, entry.1 = index
    · obtain ⟨entry, hentry, rfl⟩ := hkey
      refine .inr ⟨(hnumbered entry hentry).1, entry.2, ?_⟩
      obtain ⟨name, _, hname⟩ := Option.bind_eq_some_iff.1 (hnumbered entry hentry).1
      obtain ⟨column, hcolumn⟩ := index?_eq_some_iff.1 hname
      have hmem : (entry.1, Cell.integer entry.2) ∈
          cells ++ (numbered.map fun entry => (entry.1, Cell.integer entry.2)).toList := by
        rw [Option.mem_def] at hentry
        simp [hentry]
      rw [Row.cell, getElem?_assign_of_mem hnodup hmem, Option.getD_some]
      rw [List.length_map]
      exact lt_of_column_eq_ok hcolumn
    · left
      rw [Row.cell, getElem?_assign_of_notMem, ← Row.cell, hblank]
      rw [List.map_append, List.mem_append, not_or]
      refine ⟨hcells, ?_⟩
      cases numbered with
      | none => simp
      | some entry =>
        intro hmem
        exact hkey ⟨entry, rfl, by simpa [eq_comm] using hmem⟩

end Table

namespace Database

variable {db db' : Database} {name : String} {t : Table} {values : List (String × String)}
  {change : Table → List Row → Prop} {answer : Answer}

/-- The rows of the table with a name change in some way; its columns, its key and all other tables
stay as they are. -/
def Rewrites (db : Database) (name : String) (change : Table → List Row → Prop) (db' : Database) :
    Prop :=
  ∃ before t after rows, db.tables = before ++ t :: after ∧ sameName t.name name = true ∧
    (∀ other ∈ before, sameName other.name name = false) ∧ change t rows ∧
    db'.tables = before ++ { t with rows := rows } :: after

/-! ## The table of a statement -/

theorem replace_append {before after : List Table} {rows : List Row}
    (hbefore : ∀ other ∈ before, sameName other.name name = false)
    (ht : sameName t.name name = true) :
    setRows.replace name rows (before ++ t :: after) =
      before ++ { t with rows := rows } :: after := by
  induction before with
  | nil => simp [setRows.replace, ht]
  | cons other rest ih =>
    rw [List.forall_mem_cons] at hbefore
    simp [setRows.replace, hbefore.1, ih hbefore.2]

/-- A table has a place, and its rows are replaced there. -/
theorem exists_place_of_table (h : db.table name = .ok t) :
    ∃ before after, db.tables = before ++ t :: after ∧ sameName t.name name = true ∧
      (∀ other ∈ before, sameName other.name name = false) ∧
      ∀ rows, setRows.replace name rows db.tables = before ++ { t with rows := rows } :: after := by
  unfold Database.table table? at h
  split at h
  · next found hfind =>
    obtain rfl := Except.ok.inj h
    obtain ⟨ht, before, after, htables, hbefore⟩ := List.find?_eq_some_iff_append.1 hfind
    have hbefore : ∀ other ∈ before, sameName other.name name = false := by simpa using hbefore
    refine ⟨before, after, htables, ht, hbefore, fun rows => ?_⟩
    rw [htables, replace_append hbefore ht]
  · cases h

theorem rewrites_setRows {counted : Database} {rows : List Row} (h : db.table name = .ok t)
    (hcounted : counted.tables = db.tables) (hrows : change t rows) :
    db.Rewrites name change (counted.setRows name rows) := by
  obtain ⟨before, after, htables, ht, hbefore, hreplace⟩ := exists_place_of_table h
  refine ⟨before, t, after, rows, htables, ht, hbefore, hrows, ?_⟩
  rw [setRows, hcounted]
  exact hreplace rows

/-- The table with a name has the rows that were put in it. -/
theorem table_setRows {rows : List Row} (h : db.table name = .ok t) :
    (db.setRows name rows).table name = .ok { t with rows := rows } := by
  obtain ⟨before, after, _, ht, hbefore, hreplace⟩ := exists_place_of_table h
  have hfind : (db.setRows name rows).table? name = some { t with rows := rows } := by
    rw [table?, setRows, hreplace, List.find?_append,
      List.find?_eq_none.2 fun other hother => by simp [hbefore other hother], Option.none_or]
    exact List.find?_cons_of_pos ht
  rw [Database.table, hfind]

/-- Putting the rows of a table in their own place changes nothing. -/
theorem tables_setRows_self (h : db.table name = .ok t) :
    (db.setRows name t.rows).tables = db.tables := by
  obtain ⟨before, after, htables, _, _, hreplace⟩ := exists_place_of_table h
  exact (hreplace t.rows).trans htables.symm

/-! ## Statements -/

/-- Numbering a row changes no table, and a number that is given out goes to a key that is not
written. -/
theorem nextKey_spec (db : Database) (t : Table) (cells : List (Nat × Cell)) :
    (db.nextKey t cells).2.tables = db.tables ∧ ∀ entry ∈ (db.nextKey t cells).1,
      t.key.bind t.index? = some entry.1 ∧ entry.1 ∉ cells.map Prod.fst := by
  unfold nextKey
  split
  · next index next hindex _ =>
    split
    · exact ⟨rfl, nofun⟩
    · next hwritten =>
      refine ⟨rfl, ?_⟩
      rintro _ ⟨⟩
      refine ⟨hindex, fun hmem => hwritten ?_⟩
      obtain ⟨cell, hcell, heq⟩ := List.mem_map.1 hmem
      exact List.any_eq_true.2 ⟨cell, hcell, by simpa using heq⟩
  · exact ⟨rfl, nofun⟩

/-- An insert that succeeds adds a row with its values. -/
theorem rewrites_of_insertRow (h : db.insertRow name values = (.ok answer, db')) :
    db.Rewrites name (Table.Adds values) db' := by
  unfold insertRow at h
  dsimp only at h
  split at h
  · cases h
  · next t cells hwritten =>
    obtain ⟨t', ht, hwritten⟩ := bind_eq_ok_iff.1 hwritten
    obtain ⟨found, hfound, hwritten⟩ := bind_eq_ok_iff.1 hwritten
    obtain ⟨cells', hcells, hwritten⟩ := bind_eq_ok_iff.1 hwritten
    cases hwritten
    obtain ⟨hcounted, hnumbered⟩ := db.nextKey_spec t cells
    split at h
    · cases h
      refine rewrites_setRows ht hcounted ⟨_, ?_, rfl⟩
      exact Table.newRow_assign (Table.assigns_of_targets hfound hcells) hnumbered
    · cases h

/-- An update that returns rows has cells for its values; it replaces them in the rows with its key,
of which there is one at least, and these are the rows that it returns. -/
theorem exists_of_updateRows {keyColumn key : String}
    (h : db.updateRows name values keyColumn key = .ok (answer, db'))
    (hanswer : answer.records ≠ []) :
    ∃ t cells, db.table name = .ok t ∧ t.Assigns values cells ∧
      (∃ row ∈ t.rows, t.compares row .eq keyColumn key = true) ∧
      answer.records = ((t.rows.filter fun row => t.compares row .eq keyColumn key).map
        (Table.assign cells)).map t.record ∧
      db' = db.setRows name (t.rows.map fun row =>
        if t.compares row .eq keyColumn key = true then Table.assign cells row else row) := by
  obtain ⟨t, ht, h⟩ := bind_eq_ok_iff.1 h
  obtain ⟨found, hfound, h⟩ := bind_eq_ok_iff.1 h
  obtain ⟨tests, htests, h⟩ := bind_eq_ok_iff.1 h
  obtain ⟨chosen, hchosen, h⟩ := bind_eq_ok_iff.1 h
  obtain rfl := Table.chosen_eq htests hchosen
  split at h
  · cases h
    exact absurd rfl hanswer
  · next hsome =>
    obtain ⟨cells, hcells, h⟩ := bind_eq_ok_iff.1 h
    have hrows : (t.rows.zip (t.rows.map fun row => t.compares row .eq keyColumn key)).map
        (fun entry => if entry.2 = true then Table.assign cells entry.1 else entry.1) =
          t.rows.map fun row =>
            if t.compares row .eq keyColumn key = true then Table.assign cells row else row := by
      rw [Table.zip_map_self, List.map_map]
      rfl
    dsimp only at h
    rw [hrows, Table.map_fst_filter_zip] at h
    split at h
    · cases h
      refine ⟨t, cells, ht, Table.assigns_of_targets hfound hcells, by simpa using hsome, ?_, rfl⟩
      refine congrArg (List.map t.record) (List.map_congr_left fun row hrow => ?_)
      exact if_pos (List.mem_filter.1 hrow).2
    · cases h

/-- An update that returns a row writes over the rows with its key. -/
theorem rewrites_of_updateRows {keyColumn key : String}
    (h : db.updateRows name values keyColumn key = .ok (answer, db'))
    (hanswer : answer.records ≠ []) :
    db.Rewrites name (Table.Changes keyColumn key values) db' := by
  obtain ⟨t, cells, ht, hassigns, hrow, _, rfl⟩ := exists_of_updateRows h hanswer
  refine rewrites_setRows ht rfl ⟨?_, hrow⟩
  rw [List.forall₂_map_right_iff, List.forall₂_same]
  intro row _
  split
  · exact Table.overwrites_assign hassigns row
  · rfl

/-- A delete that finds no row changes no table; one that finds rows takes them out. -/
theorem rewrites_of_deleteRows {keyColumn key : String}
    (h : db.deleteRows name keyColumn key = .ok (answer, db')) :
    if answer.changed = 0 then db'.tables = db.tables
    else db.Rewrites name (Table.Removes keyColumn key) db' := by
  obtain ⟨t, ht, h⟩ := bind_eq_ok_iff.1 h
  obtain ⟨tests, htests, h⟩ := bind_eq_ok_iff.1 h
  obtain ⟨chosen, hchosen, h⟩ := bind_eq_ok_iff.1 h
  obtain rfl := Table.chosen_eq htests hchosen
  cases h
  have hkept : ((t.rows.zip (t.rows.map fun row => t.compares row .eq keyColumn key)).filter
      fun entry => !entry.2).map Prod.fst =
        t.rows.filter fun row => !t.compares row .eq keyColumn key := by
    rw [Table.zip_map_self, List.filter_map, List.map_map]
    exact List.map_id _
  rw [hkept]
  have hle := List.length_filter_le (fun row => !t.compares row .eq keyColumn key) t.rows
  dsimp only
  split
  · next hnone =>
    have hall : t.rows.filter (fun row => !t.compares row .eq keyColumn key) = t.rows :=
      List.length_filter_eq_length_iff.1 (by omega) |> List.filter_eq_self.2
    rw [hall]
    exact tables_setRows_self ht
  · next hsome =>
    refine rewrites_setRows ht rfl ⟨rfl, ?_⟩
    by_contra hall
    refine hsome ?_
    have hkeeps : ∀ row ∈ t.rows, (!t.compares row .eq keyColumn key) = true := by
      intro row hrow
      rw [Bool.not_eq_true', Bool.eq_false_iff]
      exact fun hkey => hall ⟨row, hrow, hkey⟩
    rw [List.filter_eq_self.2 hkeeps, Nat.sub_self]

end Database

end ParamQuery
