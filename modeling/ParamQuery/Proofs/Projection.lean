import ParamQuery.Proofs.Column
import ParamQuery.Proofs.Entity

/-!
# Columns in the rows of an answer

A row of an answer has the values of its columns under the names that the table has for them. A name
that means a column in another spelling stands for nothing there.

## Main statements

* `Table.get?_project` — the value under a name that means one of the columns.
* `Table.get?_project_eq_none` — no value under any other name.
-/

namespace ParamQuery.Table

variable {t : Table} {names : List String} {found : List (Nat × Column)} {row : Row} {name : String}
  {entry : Nat × Column}

/-- A name that is not that of a column, in any case of letters, means none. -/
theorem sameName_eq_false_of_find?_eq_none {columns : List Column} {start : Nat}
    (h : find? name columns start = none) :
    ∀ column ∈ columns, sameName column.name name = false := by
  induction columns generalizing start with
  | nil => nofun
  | cons first rest ih =>
    rw [find?] at h
    split at h
    · cases h
    · next hname => exact List.forall_mem_cons.2 ⟨by simpa using hname, ih h⟩

/-- The name of a column means this column. -/
theorem DistinctNames.exists_column_eq (h : t.DistinctNames) {column : Column}
    (hcolumn : column ∈ t.columns) : ∃ index, t.column column.name = .ok (index, column) := by
  cases hfind : find? column.name t.columns 0 with
  | none =>
    have hname := sameName_eq_false_of_find?_eq_none hfind column hcolumn
    rw [sameName_self] at hname
    cases hname
  | some entry =>
    have hentry : t.column column.name = .ok entry := by rw [Table.column, hfind]
    obtain ⟨hget, hname⟩ := column_eq_ok hentry
    obtain ⟨index, hindex⟩ := List.mem_iff_getElem?.1 hcolumn
    obtain rfl := h.index_eq hget hindex hname
    obtain rfl := Option.some.inj (hget.symm.trans hindex)
    exact ⟨entry.1, hentry⟩

/-- All columns of a table are in an answer that names none. -/
theorem mem_returned_nil : entry ∈ t.returned [] ↔ t.columns[entry.1]? = some entry.2 := by
  change entry ∈ t.columns.zipIdx.map Prod.swap ↔ _
  rw [List.mem_map]
  constructor
  · rintro ⟨_, hmem, rfl⟩
    exact List.mem_zipIdx_iff_getElem?.1 hmem
  · intro hget
    exact ⟨(entry.2, entry.1), List.mem_zipIdx_iff_getElem?.2 hget, rfl⟩

theorem record_eq_project (t : Table) (row : Row) : t.record row = t.project [] row := rfl

/-- No value stands under a name that is none of the columns. -/
theorem get?_project_eq_none (h : ∀ entry ∈ t.returned found, entry.2.name ≠ name) :
    (Record.entity (t.project found row)).get? name = none := by
  have hkeys : name ∉ (Record.entity (t.project found row)).keys := by
    rw [Record.mem_keys_entity, project_eq, List.map_map]
    intro hmem
    obtain ⟨entry, hentry, hname⟩ := List.mem_map.1 hmem
    exact h entry hentry hname
  rw [← OrderedMap.contains_iff, OrderedMap.contains] at hkeys
  simpa using hkeys

/-- Under a name that means one of the columns stands the value of the column, if the name is
spelled as the table does. -/
theorem get?_project (hnames : t.DistinctNames) (hfound : names.mapM t.column = .ok found)
    (hname : t.column name = .ok entry) (hentry : entry ∈ t.returned found) :
    (Record.entity (t.project found row)).get? name =
      if entry.2.name = name then some (row.cell entry.1).datum.toJson else none := by
  obtain ⟨hget, hsame⟩ := column_eq_ok hname
  -- a column of this name, in whatever spelling, is the one that the name means
  have honly (other : Nat × Column) (hother : other ∈ t.returned found)
      (heq : other.2.name = name) : other = entry := by
    have hother := getElem?_of_mem_returned hfound hother
    have hindex : other.1 = entry.1 := by
      refine hnames.index_eq hother hget ?_
      rw [heq, sameName_comm]
      exact hsame
    rw [hindex] at hother
    exact Prod.ext hindex (Option.some.inj (hother.symm.trans hget))
  split
  · next hspelled =>
    rw [project_eq]
    refine Record.get?_entity ?_ ?_
    · rw [List.map_map]
      exact List.mem_map.2 ⟨entry, hentry, hspelled⟩
    · intro field hfield heq
      obtain ⟨other, hother, rfl⟩ := List.mem_map.1 hfield
      rw [honly other hother heq]
  · next hspelled =>
    refine get?_project_eq_none fun other hother heq => hspelled ?_
    rw [← honly other hother heq]
    exact heq

end ParamQuery.Table
