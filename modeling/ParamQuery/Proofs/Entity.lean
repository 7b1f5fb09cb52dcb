import ParamQuery.Proofs.Collect
import ParamQuery.Store.Datum

/-!
# Rows as objects

The names and the values of a row of a result when it is written as an object.

## Main statements

* `Record.mem_keys_entity` — the names are those of the columns.
* `Record.get?_entity` — the value of a name, if all columns of that name have the same.
* `Record.erase_entity_append` — a column at the end that is taken out again leaves no trace.
-/

namespace ParamQuery

theorem Datum.fieldsToJson_eq_map (record : Record) :
    Datum.fieldsToJson record = record.map fun entry => (entry.1, entry.2.toJson) := by
  induction record with
  | nil => rfl
  | cons entry rest ih =>
    obtain ⟨name, value⟩ := entry
    rw [Datum.fieldsToJson, ih]
    rfl

namespace Record

theorem keys_fieldsToJson (record : Record) :
    Assoc.keys (Datum.fieldsToJson record) = record.map Prod.fst := by
  rw [Datum.fieldsToJson_eq_map, Assoc.keys, List.map_map]
  rfl

theorem mem_keys_entity {key : String} {record : Record} :
    key ∈ (entity record).keys ↔ key ∈ record.map Prod.fst := by
  rw [← keys_fieldsToJson]
  exact Assoc.mem_keys_collect

theorem get?_entity {key : String} {value : Datum} {record : Record}
    (hmem : key ∈ record.map Prod.fst)
    (hvalue : ∀ entry ∈ record, entry.1 = key → entry.2 = value) :
    (entity record).get? key = some value.toJson := by
  refine Assoc.get?_collect (by rwa [keys_fieldsToJson]) ?_
  rw [Datum.fieldsToJson_eq_map]
  intro entry hentry hkey
  obtain ⟨field, hfield, rfl⟩ := List.mem_map.1 hentry
  exact congrArg Datum.toJson (hvalue field hfield hkey)

theorem fieldsToJson_append (record : Record) (key : String) (value : Datum) :
    Datum.fieldsToJson (record ++ [(key, value)]) =
      Datum.fieldsToJson record ++ [(key, value.toJson)] := by
  simp [Datum.fieldsToJson_eq_map]

/-- A column at the end is the last of its name. -/
theorem get?_entity_append (record : Record) (key : String) (value : Datum) :
    (entity (record ++ [(key, value)])).get? key = some value.toJson := by
  change Assoc.get? key (Assoc.collect (Datum.fieldsToJson (record ++ [(key, value)]))) = _
  rw [fieldsToJson_append, Assoc.collect_append_singleton, Assoc.get?_put, if_pos rfl]

theorem erase_entity_append (record : Record) (key : String) (value : Datum) :
    (entity (record ++ [(key, value)])).erase key = (entity record).erase key := by
  refine OrderedMap.ext ?_
  change Assoc.erase key (Assoc.collect (Datum.fieldsToJson (record ++ [(key, value)]))) = _
  rw [fieldsToJson_append, Assoc.collect_append_singleton, Assoc.erase_put]
  rfl

theorem erase_entity_of_notMem {record : Record} {key : String}
    (h : key ∉ record.map Prod.fst) : (entity record).erase key = entity record :=
  OrderedMap.ext (Assoc.erase_of_notMem (mt mem_keys_entity.1 h))

end Record

end ParamQuery
