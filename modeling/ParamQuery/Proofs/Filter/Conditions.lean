import ParamQuery.Filter.Set

/-!
# The conditions of a filter set

A filter set holds at most one text for each filter key: the one that was put last.

## Main definitions

* `FilterSet.buckets`, `FilterSet.text?` — where a key belongs, and the text that is there for it.

## Main statements

* `FilterSet.mem_conditions_iff` — the conditions are the texts of the keys.
* `FilterSet.text?_insert` — putting a text changes that of its key alone.
-/

namespace ParamQuery

theorem CompareOp.mem_all (op : CompareOp) : op ∈ all := by
  cases op <;> decide

theorem FilterBuckets.mem_conditions_iff {b : FilterBuckets} {c : Comparison} :
    c ∈ b.conditions ↔ (b.bucket c.op).get? c.column = some c.value := by
  simp only [conditions, List.mem_flatMap, List.mem_map, OrderedMap.get?_eq_some_iff]
  constructor
  · rintro ⟨op, _, entry, hentry, rfl⟩
    exact hentry
  · intro h
    exact ⟨c.op, c.op.mem_all, _, h, rfl⟩

namespace FilterKey

theorem ext_iff {key other : FilterKey} :
    key = other ↔
      key.relation? = other.relation? ∧ key.op = other.op ∧ key.column = other.column := by
  cases key <;> cases other <;> simp [relation?, op, column, and_comm]

end FilterKey

namespace FilterSet

variable {f : FilterSet} {key other : FilterKey} {text : String}

/-- The buckets that the conditions of a key belong to. -/
def buckets (f : FilterSet) (key : FilterKey) : FilterBuckets :=
  match key.relation? with
  | none => f.base
  | some relation => (f.relation? relation).getD {}

/-- The text that is there for a key. -/
def text? (f : FilterSet) (key : FilterKey) : Option String :=
  ((f.buckets key).bucket key.op).get? key.column

/-- The conditions in the buckets of a key are those with the texts that are there. -/
theorem mem_conditions_iff :
    ⟨key.op, key.column, text⟩ ∈ (f.buckets key).conditions ↔ f.text? key = some text :=
  FilterBuckets.mem_conditions_iff

theorem text?_empty : ({} : FilterSet).text? key = none := by
  cases key with
  | base column op => cases op <;> rfl
  | related relation column op => cases op <;> rfl

theorem buckets_insert :
    (f.insert key text).buckets other =
      if key.relation? = other.relation? then (f.buckets other).insert key.op key.column text
      else f.buckets other := by
  unfold buckets
  cases hother : other.relation? with
  | none => exact base_insert f key text
  | some relation =>
    dsimp only
    rw [relation?_insert]
    split <;> rfl

/-- Putting a text changes that of its key alone. -/
theorem text?_insert :
    (f.insert key text).text? other = if key = other then some text else f.text? other := by
  rw [text?, buckets_insert]
  simp only [FilterKey.ext_iff]
  by_cases hrelation : key.relation? = other.relation?
  · rw [if_pos hrelation, FilterBuckets.bucket_insert]
    by_cases hop : key.op = other.op
    · rw [if_pos hop, OrderedMap.get?_insert]
      simp [hrelation, hop, text?]
    · simp [hop, text?]
  · simp [hrelation, text?]

end FilterSet

end ParamQuery
