import ParamQuery.Proofs.Collect
import ParamQuery.Proofs.Filter.Conditions

/-!
# Filter sets after inserts

A filter set is made by inserts. Its conditions list, comparison by comparison, every column that
was inserted for the comparison once, where it was inserted first, with the text that was inserted
last. The inserts for one relation, or for the rows that are read, decide alone about the conditions
there.

## Main definitions

* `FilterSet.ofInserts`, `FilterBuckets.ofInserts` — what a sequence of inserts makes.
* `insertsFor`, `textsFor` — the inserts for some rows, and what they put for a comparison.
* `listingOf` — what conditions should be left, said about the inserts alone.

## Main statements

* `FilterSet.base_ofInserts`, `FilterSet.relation?_ofInserts` — the buckets are made by the inserts
  for their rows.
* `FilterBuckets.bucket_ofInserts` — a bucket is made by the texts for its comparison.
* `FilterSet.conditions_of_inserts` — the conditions that are left.
-/

namespace ParamQuery

/-! ## Sequences of inserts -/

/-- The inserts for the rows that are read, or for a relation. -/
def insertsFor (relation? : Option String) (inserts : List (FilterKey × String)) :
    List (FilterKey × String) :=
  inserts.filter fun insert => insert.1.relation? = relation?

/-- The columns and texts that inserts put for a comparison. -/
def textsFor (op : CompareOp) (inserts : List (FilterKey × String)) : List (String × String) :=
  (inserts.filter fun insert => insert.1.op = op).map fun insert => (insert.1.column, insert.2)

/-- What inserts should leave: for each comparison the columns that were inserted for it, each once
and where it was inserted first, with the text that was inserted last. -/
def listingOf (inserts : List (FilterKey × String)) : List (CompareOp × String × Option String) :=
  [CompareOp.eq, .ne, .gt, .lt].flatMap fun op =>
    ((textsFor op inserts).map Prod.fst).eraseDups.map fun column =>
      (op, column, Assoc.get? column (textsFor op inserts).reverse)

variable {inserts : List (FilterKey × String)}

theorem insertsFor_concat (relation? : Option String) (key : FilterKey) (text : String) :
    insertsFor relation? (inserts ++ [(key, text)]) =
      if key.relation? = relation? then insertsFor relation? inserts ++ [(key, text)]
      else insertsFor relation? inserts := by
  unfold insertsFor
  split <;> simp_all

theorem textsFor_concat (op : CompareOp) (key : FilterKey) (text : String) :
    textsFor op (inserts ++ [(key, text)]) =
      if key.op = op then textsFor op inserts ++ [(key.column, text)] else textsFor op inserts := by
  unfold textsFor
  split <;> simp_all

/-! ## Buckets -/

namespace OrderedMap

variable {α : Type}

theorem ofList_concat (entries : List (String × α)) (key : String) (value : α) :
    ofList (entries ++ [(key, value)]) = (ofList entries).insert key value :=
  ext (Assoc.collect_append_singleton entries key value)

/-- The names of a map made from a list come where they come first in the list, and each has the
value that comes last. -/
theorem entries_ofList (entries : List (String × α)) :
    (ofList entries).entries.map (fun entry => (entry.1, some entry.2)) =
      (entries.map Prod.fst).eraseDups.map fun name => (name, Assoc.get? name entries.reverse) := by
  have hvalue : ∀ entry ∈ (ofList entries).entries,
      (entry.1, some entry.2) = (entry.1, Assoc.get? entry.1 entries.reverse) := by
    intro entry hentry
    have hget : Assoc.get? entry.1 (Assoc.collect entries) = some entry.2 :=
      (Assoc.get?_eq_some_iff (ofList entries).nodup).2 hentry
    rw [← Assoc.get?_collect_eq, hget]
  have hkeys : (ofList entries).entries.map Prod.fst = (entries.map Prod.fst).eraseDups :=
    Assoc.keys_collect entries
  rw [List.map_congr_left hvalue, ← hkeys, List.map_map]
  rfl

end OrderedMap

namespace FilterBuckets

/-- The buckets after inserts. -/
def ofInserts (inserts : List (FilterKey × String)) : FilterBuckets :=
  inserts.foldl (fun b insert => b.insert insert.1.op insert.1.column insert.2) {}

theorem ofInserts_concat (key : FilterKey) (text : String) :
    ofInserts (inserts ++ [(key, text)]) = (ofInserts inserts).insert key.op key.column text := by
  simp [ofInserts]

/-- A bucket is made by the texts for its comparison. -/
theorem bucket_ofInserts (op : CompareOp) :
    (ofInserts inserts).bucket op = OrderedMap.ofList (textsFor op inserts) := by
  induction inserts using List.reverseRecOn with
  | nil => cases op <;> rfl
  | append_singleton inserts insert ih =>
    obtain ⟨key, text⟩ := insert
    rw [ofInserts_concat, bucket_insert, textsFor_concat, ih]
    split
    · rw [OrderedMap.ofList_concat]
    · rfl

/-- The conditions, each text as one that is there. -/
def listing (b : FilterBuckets) : List (CompareOp × String × Option String) :=
  b.conditions.map fun c => (c.op, c.column, some c.value)

theorem listing_ofInserts : (ofInserts inserts).listing = listingOf inserts := by
  have hbucket (op : CompareOp) : ((ofInserts inserts).bucket op).entries.map
      (fun entry => (op, entry.1, some entry.2)) =
      ((textsFor op inserts).map Prod.fst).eraseDups.map fun column =>
        (op, column, Assoc.get? column (textsFor op inserts).reverse) := by
    rw [bucket_ofInserts]
    simpa [Function.comp_def] using congrArg (List.map (Prod.mk op))
      (OrderedMap.entries_ofList (textsFor op inserts))
  rw [listing, conditions, List.map_flatMap, listingOf]
  simp only [List.map_map, Function.comp_def, hbucket]
  rfl

end FilterBuckets

/-! ## Filter sets -/

namespace FilterSet

/-- The filter set after inserts. -/
def ofInserts (inserts : List (FilterKey × String)) : FilterSet :=
  inserts.foldl (fun f insert => f.insert insert.1 insert.2) {}

theorem ofInserts_concat (key : FilterKey) (text : String) :
    ofInserts (inserts ++ [(key, text)]) = (ofInserts inserts).insert key text := by
  simp [ofInserts]

/-- The conditions on the rows that are read are made by the inserts for them. -/
theorem base_ofInserts :
    (ofInserts inserts).base = FilterBuckets.ofInserts (insertsFor none inserts) := by
  induction inserts using List.reverseRecOn with
  | nil => rfl
  | append_singleton inserts insert ih =>
    obtain ⟨key, text⟩ := insert
    rw [ofInserts_concat, base_insert, insertsFor_concat, ih]
    split
    · rw [FilterBuckets.ofInserts_concat]
    · rfl

/-- The conditions on a relation are made by the inserts for it, if there are any. -/
theorem relation?_ofInserts (name : String) :
    (ofInserts inserts).relation? name =
      if insertsFor (some name) inserts = [] then none
      else some (FilterBuckets.ofInserts (insertsFor (some name) inserts)) := by
  induction inserts using List.reverseRecOn with
  | nil => rfl
  | append_singleton inserts insert ih =>
    obtain ⟨key, text⟩ := insert
    have hbefore : ((ofInserts inserts).relation? name).getD {} =
        FilterBuckets.ofInserts (insertsFor (some name) inserts) := by
      rw [ih]
      split
      · next hnone =>
        rw [hnone]
        rfl
      · rfl
    rw [ofInserts_concat, relation?_insert, insertsFor_concat, hbefore]
    by_cases hkey : key.relation? = some name
    · rw [if_pos hkey, if_pos hkey, if_neg (List.append_ne_nil_of_right_ne_nil _ (by simp)),
        FilterBuckets.ofInserts_concat]
    · rw [if_neg hkey, if_neg hkey, ih]

theorem insertsFor_eq_nil_iff {name : String} :
    insertsFor (some name) inserts = [] ↔ ¬ ∃ insert ∈ inserts, insert.1.relation? = some name := by
  simp [insertsFor]

/-- After any inserts the conditions on the rows that are read list, comparison by comparison, every
column that was inserted for the comparison once, where it was inserted first, with the text that
was inserted last. A relation is there exactly if an insert names it, and its conditions list the
inserts for it in the same way. Only the inserts for the same rows matter. -/
theorem conditions_of_inserts (inserts : List (FilterKey × String)) :
    (ofInserts inserts).base.listing = listingOf (insertsFor none inserts) ∧
      ∀ name, ((ofInserts inserts).relation? name).map FilterBuckets.listing =
        if ∃ insert ∈ inserts, insert.1.relation? = some name then
          some (listingOf (insertsFor (some name) inserts))
        else none := by
  refine ⟨?_, fun name => ?_⟩
  · rw [base_ofInserts, FilterBuckets.listing_ofInserts]
  · rw [relation?_ofInserts]
    by_cases hnamed : ∃ insert ∈ inserts, insert.1.relation? = some name
    · rw [if_pos hnamed, if_neg (mt insertsFor_eq_nil_iff.1 (not_not_intro hnamed)),
        Option.map_some, FilterBuckets.listing_ofInserts]
    · rw [if_neg hnamed, if_pos (insertsFor_eq_nil_iff.2 hnamed), Option.map_none]

example : (ofInserts [(.base "age" .gt, "1"), (.related "orders" "age" .gt, "2"),
    (.base "name" .eq, "a"), (.base "age" .gt, "3")]).base.conditions =
    [⟨.eq, "name", "a"⟩, ⟨.gt, "age", "3"⟩] := by decide

end FilterSet

end ParamQuery
