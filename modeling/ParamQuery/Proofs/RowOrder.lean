import ParamQuery.Store.Execution
import Mathlib.Data.List.Lex
import Mathlib.Data.List.Sort
import Mathlib.Order.Compare

/-!
# The order of rows

Values are compared by a key in a linear order. Ordering by some columns is then a total preorder on
rows, and a total order on rows that differ in one of the columns, such as a primary key. So the
order does not depend on where the rows stand in the table.

## Main definitions

* `Cell.key` — the place of a value among all values.

## Main statements

* `Cell.compare_eq_lt_iff` — values compare as their keys do.
* `pairwise_sortRows` — the rows of a result stand in order.
* `eq_sortRows_of_perm` — there is one way to put rows in order if they differ in a column of it.
-/

namespace ParamQuery

/-! ## Values -/

/-- The code points of a text. -/
def codes (text : List Char) : List Int := text.map fun c => (c.toNat : Int)

namespace Cell

/-- The place of a value among all values: its type first, then its size. -/
def key (cell : Cell) : List Int :=
  cell.typeRank :: match cell with
    | .integer n => [n]
    | .text s => codes s.toList
    | .double x => [x.rank]
    | .boolean b => [(b.toNat : Int)]
    | .date days => [days]
    | .timestamp micros => [micros]
    | .null => []

end Cell

theorem compareInt_eq_lt_iff {a b : Int} : compareInt a b = .lt ↔ a < b := by
  unfold compareInt
  split_ifs <;> simp <;> omega

theorem compareInt_eq_gt_iff {a b : Int} : compareInt a b = .gt ↔ b < a := by
  unfold compareInt
  split_ifs <;> simp <;> omega

theorem compareText_eq_lt_iff {as bs : List Char} :
    compareText as bs = .lt ↔ codes as < codes bs := by
  induction as generalizing bs with
  | nil => cases bs <;> simp [compareText, codes]
  | cons a as ih =>
    cases bs with
    | nil => simp [compareText, codes]
    | cons b bs =>
      have hcons : codes (a :: as) < codes (b :: bs) ↔
          (a.toNat : Int) < b.toNat ∨ (a.toNat : Int) = b.toNat ∧ codes as < codes bs :=
        List.cons_lt_cons_iff
      rw [hcons, ← ih, compareText]
      grind

theorem compareText_eq_gt_iff {as bs : List Char} :
    compareText as bs = .gt ↔ codes bs < codes as := by
  induction as generalizing bs with
  | nil => cases bs <;> simp [compareText, codes]
  | cons a as ih =>
    cases bs with
    | nil => simp [compareText, codes]
    | cons b bs =>
      have hcons : codes (b :: bs) < codes (a :: as) ↔
          (b.toNat : Int) < a.toNat ∨ (b.toNat : Int) = a.toNat ∧ codes bs < codes as :=
        List.cons_lt_cons_iff
      rw [hcons, ← ih, compareText]
      grind

namespace Cell

/-- One value is smaller than another exactly if its key is. -/
theorem compare_eq_lt_iff {a b : Cell} : a.compare b = .lt ↔ a.key < b.key := by
  cases a <;> cases b <;>
    simp [compare, key, typeRank, compareInt_eq_lt_iff, compareText_eq_lt_iff,
      List.cons_lt_cons_iff]

/-- One value is larger than another exactly if its key is. -/
theorem compare_eq_gt_iff {a b : Cell} : a.compare b = .gt ↔ b.key < a.key := by
  cases a <;> cases b <;>
    simp [compare, key, typeRank, compareInt_eq_gt_iff, compareText_eq_gt_iff,
      List.cons_lt_cons_iff]

theorem compare_eq_eq_iff {a b : Cell} : a.compare b = .eq ↔ a.key = b.key := by
  cases h : a.compare b with
  | lt => simpa using (compare_eq_lt_iff.1 h).ne
  | eq =>
    have hlt : ¬ a.key < b.key := fun hk => by simp [compare_eq_lt_iff.2 hk] at h
    have hgt : ¬ b.key < a.key := fun hk => by simp [compare_eq_gt_iff.2 hk] at h
    simpa using le_antisymm (not_lt.1 hgt) (not_lt.1 hlt)
  | gt => simpa using (compare_eq_gt_iff.1 h).ne'

/-- Values are equal if neither is null and the order does not tell them apart. -/
theorem satisfies_eq_iff {a b : Cell} :
    a.satisfies .eq b = true ↔ a.isNull = false ∧ b.isNull = false ∧ a.key = b.key := by
  simp [satisfies, CompareOp.holds, compare_eq_eq_iff, and_assoc]

theorem eq_null_of_isNull {a : Cell} (h : a.isNull = true) : a = .null := by
  cases a <;> simp_all [isNull]

theorem le_iff {descending : Bool} {a b : Cell} :
    a.le descending b = true ↔
      b.isNull = true ∨
        (a.isNull = false ∧ if descending then b.key ≤ a.key else a.key ≤ b.key) := by
  unfold le
  have hlt : (a.compare b != .lt) = true ↔ b.key ≤ a.key := by
    simp [compare_eq_lt_iff]
  have hgt : (a.compare b != .gt) = true ↔ a.key ≤ b.key := by
    simp [compare_eq_gt_iff]
  cases b.isNull <;> cases a.isNull <;> cases descending <;> simp_all

theorem le_total (descending : Bool) (a b : Cell) :
    a.le descending b = true ∨ b.le descending a = true := by
  simp only [le_iff]
  cases b.isNull <;> cases a.isNull <;> cases descending <;> simp [Std.Total.total]

theorem le_trans {descending : Bool} {a b c : Cell} (hab : a.le descending b = true)
    (hbc : b.le descending c = true) : a.le descending c = true := by
  rw [le_iff] at *
  rcases hbc with hc | ⟨hb, hbc⟩
  · exact .inl hc
  rcases hab with hb' | ⟨ha, hab⟩
  · simp [hb] at hb'
  refine .inr ⟨ha, ?_⟩
  cases descending with
  | true => exact hbc.trans hab
  | false => exact hab.trans hbc

/-- Two values of which each may stand before the other are at the same place. -/
theorem key_eq_of_le_of_le {descending : Bool} {a b : Cell} (hab : a.le descending b = true)
    (hba : b.le descending a = true) : a.key = b.key := by
  rw [le_iff] at *
  rcases hab with hb | ⟨ha, hab⟩
  · rcases hba with ha | ⟨hb', _⟩
    · rw [eq_null_of_isNull ha, eq_null_of_isNull hb]
    · simp [hb] at hb'
  rcases hba with ha' | ⟨_, hba⟩
  · simp [ha] at ha'
  cases descending with
  | true => exact le_antisymm hba hab
  | false => exact le_antisymm hab hba

end Cell

/-! ## Rows -/

theorem rowLe_cons {index : Nat} {descending : Bool} {rest : List SortIndex} {a b : Row} :
    rowLe ((index, descending) :: rest) a b = true ↔
      (a.cell index).le descending (b.cell index) = true ∧
        ((b.cell index).le descending (a.cell index) = true → rowLe rest a b = true) := by
  simp only [rowLe]
  cases (a.cell index).le descending (b.cell index) <;>
    cases (b.cell index).le descending (a.cell index) <;> simp

theorem rowLe_total (keys : List SortIndex) (a b : Row) :
    rowLe keys a b = true ∨ rowLe keys b a = true := by
  induction keys with
  | nil => exact .inl rfl
  | cons sort rest ih =>
    obtain ⟨index, descending⟩ := sort
    have hcell := Cell.le_total descending (a.cell index) (b.cell index)
    simp only [rowLe_cons]
    tauto

theorem rowLe_trans {keys : List SortIndex} {a b c : Row} (hab : rowLe keys a b = true)
    (hbc : rowLe keys b c = true) : rowLe keys a c = true := by
  induction keys with
  | nil => rfl
  | cons sort rest ih =>
    obtain ⟨index, descending⟩ := sort
    rw [rowLe_cons] at *
    refine ⟨Cell.le_trans hab.1 hbc.1, fun hca => ih (hab.2 ?_) (hbc.2 ?_)⟩
    · exact Cell.le_trans hbc.1 hca
    · exact Cell.le_trans hca hab.1

/-- Rows of which each may stand before the other have the same place in every column of the
order. -/
theorem key_eq_of_rowLe_of_rowLe {keys : List SortIndex} {a b : Row} (hab : rowLe keys a b = true)
    (hba : rowLe keys b a = true) {sort : SortIndex} (hsort : sort ∈ keys) :
    (a.cell sort.1).key = (b.cell sort.1).key := by
  induction keys with
  | nil => cases hsort
  | cons first rest ih =>
    obtain ⟨index, descending⟩ := first
    rw [rowLe_cons] at *
    rcases List.mem_cons.1 hsort with rfl | hsort
    · exact Cell.key_eq_of_le_of_le hab.1 hba.1
    · exact ih (hab.2 hba.1) (hba.2 hab.1) hsort

/-! ## Rows in order -/

theorem sortRows_eq_insertionSort (le : Row → Row → Bool) (rows : List Row) :
    sortRows le rows = rows.insertionSort fun a b => le a b = true := by
  have hinsert (row : Row) (rows : List Row) :
      insertSorted le row rows = rows.orderedInsert (fun a b => le a b = true) row := by
    induction rows with
    | nil => rfl
    | cons other rest ih => simp [insertSorted, ih]
  unfold sortRows List.insertionSort
  congr 1
  funext row rows
  exact hinsert row rows

/-- The rows stand in order. -/
theorem pairwise_sortRows (keys : List SortIndex) (rows : List Row) :
    (sortRows (rowLe keys) rows).Pairwise fun a b => rowLe keys a b = true := by
  have : Std.Total fun a b : Row => rowLe keys a b = true := ⟨rowLe_total keys⟩
  have : IsTrans Row fun a b => rowLe keys a b = true := ⟨fun _ _ _ => rowLe_trans⟩
  rw [sortRows_eq_insertionSort]
  exact List.pairwise_insertionSort _ _

/-- There is one way to put rows in order if no two of them are at the same place in all columns
of the order. -/
theorem eq_sortRows_of_perm {keys : List SortIndex} {rows sorted : List Row}
    (hperm : sorted.Perm rows) (hsorted : sorted.Pairwise fun a b => rowLe keys a b = true)
    (hkeys : ∀ a ∈ rows, ∀ b ∈ rows, (∀ sort ∈ keys, (a.cell sort.1).key = (b.cell sort.1).key) →
      a = b) : sorted = sortRows (rowLe keys) rows := by
  have hp : sorted.Perm (sortRows (rowLe keys) rows) := hperm.trans (sortRows_perm _ rows).symm
  refine hp.eq_of_pairwise ?_ hsorted (pairwise_sortRows keys rows)
  intro a b ha hb hab hba
  refine hkeys a (hperm.mem_iff.1 ha) b ((sortRows_perm _ rows).mem_iff.1 hb) ?_
  exact fun sort hsort => key_eq_of_rowLe_of_rowLe hab hba hsort

/-- The order of a result does not depend on where the rows stood. -/
theorem sortRows_eq_of_perm {keys : List SortIndex} {rows rows' : List Row}
    (hperm : rows.Perm rows')
    (hkeys : ∀ a ∈ rows', ∀ b ∈ rows', (∀ sort ∈ keys, (a.cell sort.1).key = (b.cell sort.1).key) →
      a = b) : sortRows (rowLe keys) rows = sortRows (rowLe keys) rows' :=
  eq_sortRows_of_perm ((sortRows_perm _ rows).trans hperm) (pairwise_sortRows keys rows) hkeys

/-! ## Unique keys -/

theorem distinctCells_iff {cells : List Cell} :
    Table.distinctCells cells = true ↔
      (∀ cell ∈ cells, cell.isNull = false) ∧ (cells.map Cell.key).Nodup := by
  induction cells with
  | nil => simp [Table.distinctCells]
  | cons cell rest ih =>
    have hother : (∀ other ∈ rest, cell.compare other ≠ .eq) ↔ cell.key ∉ rest.map Cell.key := by
      simp only [ne_eq, Cell.compare_eq_eq_iff, List.mem_map, not_exists, not_and]
      exact forall₂_congr fun _ _ => not_congr eq_comm
    simp only [Table.distinctCells, Bool.and_eq_true, List.all_eq_true, bne_iff_ne, hother, ih,
      Bool.not_eq_true', List.forall_mem_cons, List.map_cons, List.nodup_cons]
    tauto

/-- A row of a table is the only one with its key. -/
theorem Table.eq_of_key_eq {t : Table} {index : Nat} (h : distinctCells (t.cellsAt index) = true)
    {a b : Row} (ha : a ∈ t.rows) (hb : b ∈ t.rows)
    (hab : (a.cell index).key = (b.cell index).key) : a = b := by
  have hnodup := (distinctCells_iff.1 h).2
  rw [cellsAt, List.map_map] at hnodup
  exact List.inj_on_of_nodup_map hnodup ha hb hab

end ParamQuery
