import Mathlib.Data.List.Nodup
import ParamQuery.Proofs.Column
import ParamQuery.Proofs.Condition

/-!
# Values written to a row

What a row holds after values are written to it: in the columns that are named, the values as read
by the types of the columns, and everywhere else what was there before.

## Main definitions

* `Table.Assigns` — cells stand for values, at the places of their columns.
* `Table.Overwrites` — a row after values are written to it.

## Main statements

* `Table.assigns_of_targets` — the cells that are read for values stand for them.
* `Table.overwrites_assign` — replacing these cells writes the values.
-/

namespace ParamQuery.Table

variable {t : Table} {values : List (String × String)} {cells : List (Nat × Cell)} {row : Row}

/-! ## Cells for values -/

/-- A cell stands for a value: it is at the place of the column, and it is what the type of the
column makes of the text. -/
def StandsFor (t : Table) (value : String × String) (cell : Nat × Cell) : Prop :=
  ∃ column, t.column value.1 = .ok (cell.1, column) ∧ column.type.read? value.2 = some cell.2

/-- Cells stand for values one by one, each at a place of its own. -/
structure Assigns (t : Table) (values : List (String × String)) (cells : List (Nat × Cell)) :
    Prop where
  standFor : List.Forall₂ t.StandsFor values cells
  distinct : (cells.map Prod.fst).Nodup

/-- The columns of values are looked up one after the other, and none is at a place seen before. -/
theorem targets_go_eq_ok {seen : List Nat} {found : List (Nat × Column × String)}
    (h : targets.go t seen values = .ok found) :
    List.Forall₂ (fun value target =>
        t.column value.1 = .ok (target.1, target.2.1) ∧ target.2.2 = value.2) values found ∧
      (found.map Prod.fst).Nodup ∧ ∀ target ∈ found, target.1 ∉ seen := by
  induction values generalizing seen found with
  | nil =>
    cases h
    exact ⟨.nil, List.nodup_nil, nofun⟩
  | cons value rest ih =>
    obtain ⟨name, text⟩ := value
    unfold targets.go at h
    obtain ⟨⟨index, column⟩, hcolumn, h⟩ := bind_eq_ok_iff.1 h
    dsimp only at h
    split at h
    · cases h
    · next hseen =>
      obtain ⟨later, hlater, h⟩ := bind_eq_ok_iff.1 h
      obtain rfl := pure_eq_ok_iff.1 h
      obtain ⟨hfound, hnodup, hfresh⟩ := ih hlater
      rw [List.contains_iff_mem] at hseen
      have hindex : index ∉ later.map Prod.fst := by
        intro hmem
        obtain ⟨target, htarget, heq⟩ := List.mem_map.1 hmem
        exact hfresh target htarget (heq ▸ List.mem_cons_self)
      refine ⟨.cons ⟨hcolumn, rfl⟩ hfound, List.nodup_cons.2 ⟨hindex, hnodup⟩, ?_⟩
      refine List.forall_mem_cons.2 ⟨hseen, fun target htarget => ?_⟩
      exact fun hmem => hfresh target htarget (List.mem_cons_of_mem index hmem)

/-- The texts of values are read one after the other as their columns make them. -/
theorem standFor_of_readTargets {found : List (Nat × Column × String)}
    (hfound : List.Forall₂ (fun value target =>
      t.column value.1 = .ok (target.1, target.2.1) ∧ target.2.2 = value.2) values found)
    (hcells : readTargets found = .ok cells) :
    List.Forall₂ t.StandsFor values cells ∧ cells.map Prod.fst = found.map Prod.fst := by
  replace hcells := mapM_eq_ok_iff.1 hcells
  induction hfound generalizing cells with
  | nil =>
    cases hcells
    exact ⟨.nil, rfl⟩
  | cons htarget _ ih =>
    cases hcells with
    | cons hcell hcells =>
      obtain ⟨cell, hread, hpair⟩ := bind_eq_ok_iff.1 hcell
      obtain rfl := pure_eq_ok_iff.1 hpair
      obtain ⟨hstand, hplaces⟩ := ih hcells
      obtain ⟨hcolumn, htext⟩ := htarget
      rw [htext] at hread
      exact ⟨.cons ⟨_, hcolumn, ColumnType.read_eq_ok_iff.1 hread⟩ hstand,
        congrArg (_ :: ·) hplaces⟩

/-- The cells that are read for values stand for them. -/
theorem assigns_of_targets {found : List (Nat × Column × String)}
    (hfound : t.targets values = .ok found) (hcells : readTargets found = .ok cells) :
    t.Assigns values cells := by
  obtain ⟨hfound, hnodup, _⟩ := targets_go_eq_ok hfound
  obtain ⟨hstand, hplaces⟩ := standFor_of_readTargets hfound hcells
  exact ⟨hstand, hplaces ▸ hnodup⟩

/-! ## Replacing cells -/

theorem assign_cons (entry : Nat × Cell) :
    assign (entry :: cells) row = assign cells (row.set entry.1 entry.2) := rfl

theorem length_assign : (assign cells row).length = row.length := by
  induction cells generalizing row with
  | nil => rfl
  | cons entry rest ih => rw [assign_cons, ih, List.length_set]

/-- A cell at a place that is not written stays. -/
theorem getElem?_assign_of_notMem {index : Nat} (h : index ∉ cells.map Prod.fst) :
    (assign cells row)[index]? = row[index]? := by
  induction cells generalizing row with
  | nil => rfl
  | cons entry rest ih =>
    rw [List.map_cons, List.mem_cons, not_or] at h
    rw [assign_cons, ih h.2, List.getElem?_set_ne fun e => h.1 e.symm]

/-- A cell that is written is there afterwards. -/
theorem getElem?_assign_of_mem {entry : Nat × Cell} (hnodup : (cells.map Prod.fst).Nodup)
    (h : entry ∈ cells) (hrow : entry.1 < row.length) :
    (assign cells row)[entry.1]? = some entry.2 := by
  induction cells generalizing row with
  | nil => cases h
  | cons first rest ih =>
    rw [List.map_cons, List.nodup_cons] at hnodup
    rw [assign_cons]
    rcases List.mem_cons.1 h with rfl | h
    · rw [getElem?_assign_of_notMem hnodup.1, List.getElem?_set_self hrow]
    · exact ih hnodup.2 h (by rwa [List.length_set])

/-! ## Rows written over -/

/-- A row after values are written to it. -/
structure Overwrites (t : Table) (values : List (String × String)) (row row' : Row) : Prop where
  length : row'.length = row.length
  written : ∀ value ∈ values, ∃ cell, t.StandsFor value cell ∧
    (cell.1 < row.length → row'[cell.1]? = some cell.2)
  kept : ∀ index, (∀ value ∈ values, t.index? value.1 ≠ some index) → row'[index]? = row[index]?

/-- A place without a value has no cell for one. -/
theorem Assigns.notMem (h : t.Assigns values cells) {index : Nat}
    (hindex : ∀ value ∈ values, t.index? value.1 ≠ some index) : index ∉ cells.map Prod.fst := by
  intro hmem
  obtain ⟨cell, hcell, rfl⟩ := List.mem_map.1 hmem
  obtain ⟨value, hvalue, column, hcolumn, _⟩ := exists_mem_left_of_forall₂ h.standFor hcell
  exact hindex value hvalue (index?_eq_some_iff.2 ⟨column, hcolumn⟩)

/-- Replacing the cells of values writes the values. -/
theorem overwrites_assign (h : t.Assigns values cells) (row : Row) :
    t.Overwrites values row (assign cells row) where
  length := length_assign
  written := by
    intro value hvalue
    obtain ⟨cell, hcell, hstands⟩ := exists_mem_right_of_forall₂ h.standFor hvalue
    exact ⟨cell, hstands, getElem?_assign_of_mem h.distinct hcell⟩
  kept _ hindex := getElem?_assign_of_notMem (h.notMem hindex)

end ParamQuery.Table
