import ParamQuery.Proofs.Column
import ParamQuery.Proofs.Question
import ParamQuery.Proofs.RowOrder

/-!
# Tables that hold the same rows

Two tables with the same columns and the same rows answer a question alike, whatever the physical
order of their rows, if the order of the question tells all rows of a table apart.

## Main definitions

* `Table.SameRows` — two tables hold the same rows.
* `Query.TellsApart` — an order tells the rows of a table apart.

## Main statements

* `Query.Finds.of_sameRows` — a question finds the same rows in both tables.
* `Query.Finds.records_eq` — it gives the same answer on both.
-/

namespace ParamQuery

/-- A table with the columns of `t` and its rows, perhaps in another physical order. -/
structure Table.SameRows (t t' : Table) : Prop where
  columns : t'.columns = t.columns
  rows : t'.rows.Perm t.rows

namespace Table.SameRows

variable {t t' : Table}

theorem symm (h : SameRows t t') : SameRows t' t := ⟨h.columns.symm, h.rows.symm⟩

theorem trans {t'' : Table} (h : SameRows t t') (h' : SameRows t' t'') : SameRows t t'' :=
  ⟨h'.columns.trans h.columns, h'.rows.trans h.rows⟩

theorem column_eq (h : SameRows t t') : t'.column = t.column := by
  funext name
  rw [Table.column, h.columns]
  rfl

theorem test_eq (h : SameRows t t') : t'.test = t.test := by
  funext c
  cases c <;> simp only [test, h.column_eq]

theorem sortIndex_eq (h : SameRows t t') (withTotal : Bool) :
    t'.sortIndex withTotal = t.sortIndex withTotal := by
  funext key
  rw [sortIndex, h.column_eq]
  rfl

theorem project_eq (h : SameRows t t') : t'.project = t.project := by
  funext columns row
  unfold project record
  rw [h.columns]

theorem compares_eq (h : SameRows t t') : t'.compares = t.compares := by
  funext row op name text
  rw [compares, h.column_eq]
  rfl

theorem cellText?_eq (h : SameRows t t') : t'.cellText? = t.cellText? := by
  funext row name
  rw [cellText?, h.column_eq]
  rfl

/-- The same rows satisfy conditions. -/
theorem holds_eq (h : SameRows t t') (row : Row) :
    Condition.holds t' row = Condition.holds t row := by
  funext c
  cases c <;> simp only [Condition.holds, h.cellText?_eq, h.compares_eq]

theorem index?_eq (h : SameRows t t') : t'.index? = t.index? := by
  funext name
  rw [index?, h.columns]
  rfl

/-- A key that is unique stays so in any order of the rows. -/
theorem uniqueKey (h : SameRows t t') {name : String} (hkey : t.UniqueKey name) :
    t'.UniqueKey name := by
  obtain ⟨index, hindex, hdistinct⟩ := hkey
  have hcells : (t'.cellsAt index).Perm (t.cellsAt index) := h.rows.map _
  obtain ⟨hnull, hnodup⟩ := distinctCells_iff.1 hdistinct
  refine ⟨index, h.index?_eq ▸ hindex, distinctCells_iff.2 ⟨fun cell hcell => ?_, ?_⟩⟩
  · exact hnull cell (hcells.mem_iff.1 hcell)
  · exact (hcells.map _).nodup_iff.2 hnodup

/-- The same rows are chosen. -/
theorem matching (h : SameRows t t') {conditions : List Condition} {rows : List Row}
    (hrows : t.matching conditions = .ok rows) :
    ∃ rows', t'.matching conditions = .ok rows' ∧ rows'.Perm rows := by
  obtain ⟨tests, htests, hall, rfl⟩ := Table.matching_eq_ok_iff.1 hrows
  refine ⟨_, Table.matching_eq_ok_iff.2 ⟨tests, ?_, ?_, rfl⟩, ?_⟩
  · rw [h.test_eq]
    exact htests
  · exact fun row hrow => hall row (h.rows.mem_iff.1 hrow)
  · simp only [h.holds_eq]
    exact h.rows.filter _

end Table.SameRows

namespace Query

variable {q : Query} {db : Database} {t : Table} {columns : List (Nat × Column)}
  {sorts : List SortIndex} {rows : List Row}

/-- A question finds the same rows in a table that holds the same rows. -/
theorem Finds.of_sameRows {db db' : Database} {t t' : Table} (h : q.Finds db t columns sorts rows)
    (ht' : db'.table q.table = .ok t') (hsame : t.SameRows t') :
    ∃ rows', q.Finds db' t' columns sorts rows' ∧ rows'.Perm rows := by
  obtain ⟨found, hfound, rfl⟩ := h.order
  obtain ⟨rows', hrows', hperm⟩ := hsame.matching h.rows
  refine ⟨rows', ⟨ht', ?_, ⟨found, ?_, rfl⟩, h.page, hrows'⟩, hperm⟩
  · rw [hsame.column_eq]
    exact h.columns
  · rw [hsame.sortIndex_eq]
    exact hfound

/-- An order tells the rows of a table apart: rows at the same place in all its columns are one. -/
def TellsApart (sorts : List SortIndex) (t : Table) : Prop :=
  ∀ a ∈ t.rows, ∀ b ∈ t.rows, (∀ sort ∈ sorts, (a.cell sort.1).key = (b.cell sort.1).key) → a = b

/-- An order with a column that has a different value in every row tells the rows apart. -/
theorem tellsApart_of_uniqueKey {name : String} {sort : SortIndex} (hkey : t.UniqueKey name)
    (hsort : sort ∈ sorts) (hindex : t.index? name = some sort.1) : TellsApart sorts t := by
  obtain ⟨index, hindex', hdistinct⟩ := hkey
  cases hindex.symm.trans hindex'
  exact fun a ha b hb hab => Table.eq_of_key_eq hdistinct ha hb (hab sort hsort)

/-- The order of the answer does not depend on where the rows stood. -/
theorem Finds.sortRows_eq {rows rows' : List Row} (h : q.Finds db t columns sorts rows)
    (hperm : rows'.Perm rows) (hsorts : TellsApart sorts t) :
    sortRows (rowLe sorts) rows' = sortRows (rowLe sorts) rows := by
  have hsub : rows ⊆ t.rows := h.rows_eq ▸ List.filter_subset_self _
  exact sortRows_eq_of_perm hperm fun a ha b hb => hsorts a (hsub ha) b (hsub hb)

/-- The answer is the same on a table that holds the same rows. -/
theorem Finds.records_eq {t t' : Table} {rows rows' : List Row}
    (h : q.Finds db t columns sorts rows) (hsame : t.SameRows t') (hperm : rows'.Perm rows)
    (hsorts : TellsApart sorts t) :
    q.records t' columns sorts rows' = q.records t columns sorts rows := by
  unfold records
  rw [h.sortRows_eq hperm hsorts, hperm.length_eq, hsame.project_eq]

end Query

end ParamQuery
