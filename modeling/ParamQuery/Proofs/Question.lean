import ParamQuery.Proofs.Column
import ParamQuery.Proofs.Condition
import ParamQuery.Proofs.Entity

/-!
# Questions

What a question that succeeds went through, and the rows of its answer as objects.

## Main definitions

* `Query.Finds` — the table, the columns, the order and the rows that a question comes to.

## Main statements

* `Query.run_eq_ok_iff` — the answer of a question.
* `Query.Finds.rows_eq` — the rows found are those that satisfy the conditions.
-/

namespace ParamQuery

namespace Query

variable {q : Query} {db : Database} {t : Table} {columns : List (Nat × Column)}
  {sorts : List SortIndex} {rows : List Row}

/-- What a question comes to: the table, the places of the columns to return and to order by, and
the rows of all pages in the order of the table. -/
structure Finds (q : Query) (db : Database) (t : Table) (columns : List (Nat × Column))
    (sorts : List SortIndex) (rows : List Row) : Prop where
  table : db.table q.table = .ok t
  columns : q.columns.mapM t.column = .ok columns
  order : ∃ found, q.order.mapM (t.sortIndex q.withTotal) = .ok found ∧ sorts = found.filterMap id
  page : ∀ page, q.page = some page → page.check = .ok ()
  rows : t.matching q.conditions = .ok rows

/-- The rows of the page of a question, or all rows if it has none. -/
def cut {α : Type} (q : Query) (rows : List α) : List α :=
  match q.page with
  | some page => page.slice rows
  | none => rows

/-- The total as a column at the end of a row, if the question asks for it. -/
def totalEntry (q : Query) (total : Nat) : Record :=
  if q.withTotal then [(totalColumn, .integer total)] else []

/-- The rows of the page in order, each with the columns asked for and the total. -/
def records (q : Query) (t : Table) (columns : List (Nat × Column)) (sorts : List SortIndex)
    (rows : List Row) : List Record :=
  (q.cut (sortRows (rowLe sorts) rows)).map fun row =>
    t.project columns row ++ q.totalEntry rows.length

/-- The answer of a question: its names are those of columns, its page is within bounds, and every
text that a row gets to can be read. -/
theorem run_eq_ok_iff {result : List Record} :
    q.run db = .ok result ↔
      ∃ t columns sorts rows, q.Finds db t columns sorts rows ∧
        result = q.records t columns sorts rows := by
  unfold run
  cases hpage : q.page with
  | none =>
    simp only [bind_eq_ok_iff, pure_eq_ok_iff]
    constructor
    · rintro ⟨t, ht, columns, hcolumns, found, hfound, rows, hrows, rfl⟩
      refine ⟨t, columns, _, rows, ⟨ht, hcolumns, ⟨found, hfound, rfl⟩, ?_, hrows⟩, ?_⟩
      · simp [hpage]
      · simp [records, cut, totalEntry, hpage]
    · rintro ⟨t, columns, _, rows, ⟨ht, hcolumns, ⟨found, hfound, rfl⟩, _, hrows⟩, rfl⟩
      refine ⟨t, ht, columns, hcolumns, found, hfound, rows, hrows, ?_⟩
      simp [records, cut, totalEntry, hpage]
  | some page =>
    simp only [bind_eq_ok_iff, pure_eq_ok_iff]
    constructor
    · rintro ⟨t, ht, columns, hcolumns, found, hfound, _, hcheck, rows, hrows, rfl⟩
      refine ⟨t, columns, _, rows, ⟨ht, hcolumns, ⟨found, hfound, rfl⟩, ?_, hrows⟩, ?_⟩
      · simp [hpage, hcheck]
      · simp [records, cut, totalEntry, hpage]
    · rintro ⟨t, columns, _, rows, ⟨ht, hcolumns, ⟨found, hfound, rfl⟩, hcheck, hrows⟩, rfl⟩
      refine ⟨t, ht, columns, hcolumns, found, hfound, (), hcheck page hpage, rows, hrows, ?_⟩
      simp [records, cut, totalEntry, hpage]

/-- What a question comes to is determined by it and the database. -/
theorem Finds.unique {t t' : Table} {columns columns' : List (Nat × Column)}
    {sorts sorts' : List SortIndex} {rows rows' : List Row} (h : q.Finds db t columns sorts rows)
    (h' : q.Finds db t' columns' sorts' rows') :
    t = t' ∧ columns = columns' ∧ sorts = sorts' ∧ rows = rows' := by
  have ht : t = t' := Except.ok.inj (h.table.symm.trans h'.table)
  subst ht
  have hcolumns : columns = columns' := Except.ok.inj (h.columns.symm.trans h'.columns)
  have hrows : rows = rows' := Except.ok.inj (h.rows.symm.trans h'.rows)
  obtain ⟨found, hfound, rfl⟩ := h.order
  obtain ⟨found', hfound', rfl⟩ := h'.order
  have hsame : found = found' := Except.ok.inj (hfound.symm.trans hfound')
  exact ⟨rfl, hcolumns, congrArg _ hsame, hrows⟩

/-- A question for another page, or for all rows, finds the same rows. -/
theorem Finds.with_page (h : q.Finds db t columns sorts rows) {page : Option Page}
    (hpage : ∀ p, page = some p → p.check = .ok ()) :
    { q with page := page }.Finds db t columns sorts rows :=
  ⟨h.table, h.columns, h.order, hpage, h.rows⟩

/-- A column to order by, unless it is called like the total, has its place in the order. -/
theorem Finds.mem_sorts (h : q.Finds db t columns sorts rows) {key : SortKey} (hkey : key ∈ q.order)
    (htotal : sameName key.column totalColumn = false) :
    ∃ index, t.index? key.column = some index ∧ (index, key.direction == .desc) ∈ sorts := by
  obtain ⟨found, hfound, rfl⟩ := h.order
  obtain ⟨sort, hsort, hindex⟩ := exists_mem_right_of_forall₂ (mapM_eq_ok_iff.1 hfound) hkey
  simp only [Table.sortIndex, htotal, Bool.and_false, Bool.false_eq_true, if_false, bind_eq_ok_iff,
    Prod.exists, pure_eq_ok_iff] at hindex
  obtain ⟨index, column, hcolumn, rfl⟩ := hindex
  refine ⟨index, Table.index?_eq_some_iff.2 ⟨column, hcolumn⟩, ?_⟩
  exact List.mem_filterMap.2 ⟨_, hsort, rfl⟩

/-- The rows that a question finds are those that satisfy its conditions. -/
theorem Finds.rows_eq (h : q.Finds db t columns sorts rows) :
    rows = t.rows.filter fun row => q.conditions.all (Condition.holds t row) := by
  obtain ⟨_, _, _, hrows⟩ := Table.matching_eq_ok_iff.1 h.rows
  exact hrows

end Query

end ParamQuery
