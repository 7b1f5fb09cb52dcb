import ParamQuery.Proofs.Containment
import ParamQuery.Proofs.Result
import ParamQuery.Store.Execution

/-!
# Conditions

What a condition says about a row, apart from how it is carried out: when the rows of a table are
chosen, conditions are tested one after the other and a bound text is read only when a row gets to
it. If that succeeds, the rows chosen are those that satisfy all conditions.

## Main definitions

* `Table.compares`, `Table.contains` — the cell of a column against a text.
* `Condition.holds`, `FilterBuckets.holds` — whether a row satisfies a condition, or several.

## Main statements

* `Table.matching_eq_ok_iff` — when choosing rows succeeds, and which rows are chosen.
-/

namespace ParamQuery

open Text

namespace Table

/-- Whether the cell of a column compares so with a text, which is read as a value of the column. A
text that stands for no value compares with nothing, and nor does null. -/
def compares (t : Table) (row : Row) (op : CompareOp) (name text : String) : Bool :=
  match t.column name with
  | .ok (index, column) => (column.type.read? text).any ((row.cell index).satisfies op)
  | .error _ => false

/-- A cell that compares so with a text is in the column of the name, which reads the text. -/
theorem compares_eq_true_iff {t : Table} {row : Row} {name text : String} {op : CompareOp} :
    t.compares row op name text = true ↔ ∃ index column bound,
      t.column name = .ok (index, column) ∧ column.type.read? text = some bound ∧
        (row.cell index).satisfies op bound = true := by
  unfold compares
  cases hcolumn : t.column name with
  | error fault => simp
  | ok found =>
    obtain ⟨index, column⟩ := found
    simp [Option.any_eq_true]

/-- The text of the cell of a column; null has none. -/
def cellText? (t : Table) (row : Row) (name : String) : Option (List Char) :=
  match t.column name with
  | .ok (index, _) => (row.cell index).searchText?
  | .error _ => none

/-- Whether the text of the cell of a column contains a word, in any case of letters. -/
def contains (t : Table) (row : Row) (name word : String) : Bool :=
  (t.cellText? row name).any fun text => decide (foldCase word.toList <:+: foldCase text)

end Table

/-- Whether a row satisfies all conditions of some buckets. -/
def FilterBuckets.holds (buckets : FilterBuckets) (t : Table) (row : Row) : Bool :=
  buckets.conditions.all fun c => t.compares row c.op c.column c.value

/-- Whether a row satisfies a condition. -/
def Condition.holds (t : Table) (row : Row) : Condition → Bool
  | .search columns pattern =>
    columns.any fun name => (t.cellText? row name).any (Pattern.acceptsFolded pattern.toList)
  | .compare c => t.compares row c.op c.column c.value
  | .oneOf name values => values.any (t.compares row .eq name)

theorem all_holds_filterConditions (buckets : FilterBuckets) (t : Table) (row : Row) :
    (filterConditions buckets).all (Condition.holds t row) = buckets.holds t row := by
  rw [filterConditions, List.all_map]
  rfl

theorem ColumnType.read_eq_ok_iff {type : ColumnType} {text : String} {cell : Cell} :
    type.read text = .ok cell ↔ type.read? text = some cell := by
  unfold read
  cases type.read? text <;> simp

theorem any_eq_any_of_forall₂ {α β : Type} {R : α → β → Prop} {p : α → Bool} {q : β → Bool}
    {xs : List α} {ys : List β} (h : List.Forall₂ R xs ys) (hpq : ∀ x y, R x y → p x = q y) :
    xs.any p = ys.any q := by
  induction h with
  | nil => rfl
  | cons hxy _ ih => rw [List.any_cons, List.any_cons, hpq _ _ hxy, ih]

/-- A test that succeeds on a row says whether the row satisfies the condition. -/
theorem Condition.holds_eq {t : Table} {c : Condition} {test : Test} {row : Row} {b : Bool}
    (htest : t.test c = .ok test) (hb : test.holds row = .ok b) : c.holds t row = b := by
  cases c with
  | search columns pattern =>
    obtain ⟨found, hfound, htest⟩ := bind_eq_ok_iff.1 htest
    cases htest
    cases hb
    rw [List.any_map]
    refine any_eq_any_of_forall₂ (mapM_eq_ok_iff.1 hfound) fun name entry hentry => ?_
    simp [Table.cellText?, hentry]
  | compare c =>
    obtain ⟨⟨index, column⟩, hcolumn, htest⟩ := bind_eq_ok_iff.1 htest
    cases htest
    obtain ⟨bound, hbound, hb⟩ := bind_eq_ok_iff.1 hb
    cases hb
    simp [holds, Table.compares, hcolumn, ColumnType.read_eq_ok_iff.1 hbound]
  | oneOf name values =>
    obtain ⟨⟨index, column⟩, hcolumn, htest⟩ := bind_eq_ok_iff.1 htest
    cases htest
    obtain ⟨cells, hcells, hb⟩ := bind_eq_ok_iff.1 hb
    cases hb
    refine any_eq_any_of_forall₂ (mapM_eq_ok_iff.1 hcells) fun value cell hcell => ?_
    simp [Table.compares, hcolumn, ColumnType.read_eq_ok_iff.1 hcell]

/-- Tests that are made one after the other, up to the first that fails, say whether a row satisfies
all conditions, also those that were not tested. -/
theorem Condition.all_holds_eq {t : Table} {conditions : List Condition} {tests : List Test}
    {row : Row} {b : Bool} (htests : conditions.mapM t.test = .ok tests)
    (hb : Test.allHold tests row = .ok b) : conditions.all (Condition.holds t row) = b := by
  have h := mapM_eq_ok_iff.1 htests
  clear htests
  induction h generalizing b with
  | nil =>
    cases hb
    rfl
  | cons htest _ ih =>
    obtain ⟨passes, hpasses, hb⟩ := bind_eq_ok_iff.1 hb
    rw [List.all_cons, holds_eq htest hpasses]
    cases passes with
    | true => simpa using ih hb
    | false =>
      cases hb
      rfl

theorem Test.select_eq_ok_iff {tests : List Test} {rows chosen : List Row} {p : Row → Bool}
    (hp : ∀ row b, allHold tests row = .ok b → p row = b) :
    select tests rows = .ok chosen ↔
      (∀ row ∈ rows, ∃ b, allHold tests row = .ok b) ∧ chosen = rows.filter p := by
  induction rows generalizing chosen with
  | nil => simp [select, eq_comm]
  | cons row rest ih =>
    simp only [select, bind_eq_ok_iff, pure_eq_ok_iff, ih, List.forall_mem_cons]
    constructor
    · rintro ⟨b, hb, _, ⟨hrest, rfl⟩, rfl⟩
      refine ⟨⟨⟨b, hb⟩, hrest⟩, ?_⟩
      rw [List.filter_cons, hp row b hb]
    · rintro ⟨⟨⟨b, hb⟩, hrest⟩, rfl⟩
      refine ⟨b, hb, rest.filter p, ⟨hrest, rfl⟩, ?_⟩
      rw [List.filter_cons, hp row b hb]

/-- Choosing rows succeeds if all names are those of columns and every text that a row gets to can
be read. Then the rows chosen are those that satisfy all conditions. -/
theorem Table.matching_eq_ok_iff {t : Table} {conditions : List Condition} {chosen : List Row} :
    t.matching conditions = .ok chosen ↔
      ∃ tests, conditions.mapM t.test = .ok tests ∧
        (∀ row ∈ t.rows, ∃ b, Test.allHold tests row = .ok b) ∧
        chosen = t.rows.filter fun row => conditions.all (Condition.holds t row) := by
  rw [matching, bind_eq_ok_iff]
  refine exists_congr fun tests => and_congr_right fun htests => ?_
  exact Test.select_eq_ok_iff fun row b hb => Condition.all_holds_eq htests hb

end ParamQuery
