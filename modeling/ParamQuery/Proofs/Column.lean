import ParamQuery.Proofs.Result
import ParamQuery.Store.Execution

/-!
# Columns by name

Names of columns are compared without regard to ASCII case, and the first column with a name is the
one it means.

## Main definitions

* `Table.DistinctNames` — no name means two columns.
* `Table.returned` — the columns of an answer, with their places.

## Main statements

* `Table.column_eq_ok` — the column that a name means.
* `Table.project_eq` — a row of an answer, column by column.
-/

namespace ParamQuery

@[simp] theorem sameName_self (name : String) : sameName name name = true := by
  simp [sameName]

theorem sameName_comm (a b : String) : sameName a b = sameName b a := by
  unfold sameName
  exact BEq.comm

theorem sameName_trans {a b c : String} (hab : sameName a b = true) (hbc : sameName b c = true) :
    sameName a c = true := by
  rw [sameName, beq_iff_eq] at *
  exact hab.trans hbc

namespace Table

theorem find?_eq_some {name : String} {columns : List Column} {start index : Nat}
    {column : Column} (h : find? name columns start = some (index, column)) :
    start ≤ index ∧ columns[index - start]? = some column ∧ sameName column.name name = true := by
  induction columns generalizing start with
  | nil => cases h
  | cons first rest ih =>
    rw [find?] at h
    split at h
    · next hname =>
      cases h
      simp [hname]
    · obtain ⟨hle, hget, hname⟩ := ih h
      have hsub : index - start = index - (start + 1) + 1 := by omega
      exact ⟨by omega, by rw [hsub, List.getElem?_cons_succ, hget], hname⟩

/-- A name means a column that is called so. -/
theorem column_eq_ok {t : Table} {name : String} {index : Nat} {column : Column}
    (h : t.column name = .ok (index, column)) :
    t.columns[index]? = some column ∧ sameName column.name name = true := by
  unfold Table.column at h
  split at h
  · next hfind =>
    cases h
    exact (find?_eq_some hfind).2
  · cases h

theorem mem_of_column_eq_ok {t : Table} {name : String} {index : Nat} {column : Column}
    (h : t.column name = .ok (index, column)) : column ∈ t.columns :=
  List.mem_of_getElem? (column_eq_ok h).1

theorem lt_of_column_eq_ok {t : Table} {name : String} {index : Nat} {column : Column}
    (h : t.column name = .ok (index, column)) : index < t.columns.length :=
  (List.getElem?_eq_some_iff.1 (column_eq_ok h).1).1

theorem index?_eq_some_iff {t : Table} {name : String} {index : Nat} :
    t.index? name = some index ↔ ∃ column, t.column name = .ok (index, column) := by
  unfold index? Table.column
  cases find? name t.columns 0 with
  | none => simp
  | some found => simp [Prod.ext_iff]

/-- No two columns are called the same. -/
def DistinctNames (t : Table) : Prop :=
  (t.columns.map fun column => Text.asciiLower column.name).Nodup

instance (t : Table) : Decidable t.DistinctNames := inferInstanceAs (Decidable (List.Nodup _))

/-- Columns that are called the same stand at the same place. -/
theorem DistinctNames.index_eq {t : Table} (h : t.DistinctNames) {i j : Nat} {a b : Column}
    (ha : t.columns[i]? = some a) (hb : t.columns[j]? = some b)
    (hname : sameName a.name b.name = true) : i = j := by
  have hlength : i < (t.columns.map fun column => Text.asciiLower column.name).length := by
    rw [List.length_map]
    exact (List.getElem?_eq_some_iff.1 ha).1
  refine (List.getElem?_inj hlength h).1 ?_
  rw [List.getElem?_map, List.getElem?_map, ha, hb]
  simpa [sameName] using hname

/-! ## Columns of an answer -/

/-- The columns of an answer, with their places: those asked for, or all. -/
def returned (t : Table) (found : List (Nat × Column)) : List (Nat × Column) :=
  if found.isEmpty then t.columns.zipIdx.map Prod.swap else found

/-- A row of an answer has the name and the value of each column. -/
theorem project_eq (t : Table) (found : List (Nat × Column)) (row : Row) :
    t.project found row =
      (t.returned found).map fun entry => (entry.2.name, (row.cell entry.1).datum) := by
  unfold project returned record
  split
  · rw [List.map_map]
    rfl
  · rfl

/-- An answer that names columns has these. -/
theorem returned_eq_self {t : Table} {names : List String} {found : List (Nat × Column)}
    (hfound : names.mapM t.column = .ok found) (hnames : names ≠ []) : t.returned found = found := by
  have hne : found.isEmpty = false := by
    rwa [isEmpty_of_mapM_eq_ok hfound, List.isEmpty_eq_false_iff]
  simp [returned, hne]

/-- The columns of an answer are columns of the table. -/
theorem getElem?_of_mem_returned {t : Table} {names : List String} {found : List (Nat × Column)}
    (hfound : names.mapM t.column = .ok found) {entry : Nat × Column}
    (h : entry ∈ t.returned found) : t.columns[entry.1]? = some entry.2 := by
  unfold returned at h
  split at h
  · obtain ⟨⟨column, index⟩, hmem, rfl⟩ := List.mem_map.1 h
    exact List.mem_zipIdx_iff_getElem?.1 hmem
  · obtain ⟨name, _, hname⟩ := exists_mem_left_of_forall₂ (mapM_eq_ok_iff.1 hfound) h
    exact (column_eq_ok hname).1

end Table

end ParamQuery
