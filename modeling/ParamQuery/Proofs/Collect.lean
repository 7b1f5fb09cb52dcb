import ParamQuery.OrderedMap
import Mathlib.Data.List.Induction

/-!
# Pairs put one after the other

What is left of a list of pairs when they are put one after the other into an empty list: the names
in the order in which they first come, each with its last value.

## Main statements

* `Assoc.keys_collect` — the names that are left.
* `Assoc.get?_collect_eq` — the value that is left for a name.
* `Assoc.length_collect_iff` — when no pair is lost.
* `Assoc.ext_of_nodup` — lists of pairs without repeated names are equal if they read alike.
-/

namespace ParamQuery

namespace Assoc

variable {α β : Type}

theorem keys_append_singleton (entries : List (String × α)) (key : String) (value : α) :
    keys (entries ++ [(key, value)]) = keys entries ++ [key] := by
  simp [keys]

theorem collect_append_singleton (entries : List (String × α)) (key : String) (value : α) :
    collect (entries ++ [(key, value)]) = put key value (collect entries) := by
  simp [collect]

/-- The names are kept in the order in which they first come. -/
theorem keys_collect (entries : List (String × α)) :
    keys (collect entries) = (keys entries).eraseDups := by
  induction entries using List.reverseRecOn with
  | nil => rfl
  | append_singleton entries entry ih =>
    obtain ⟨k, v⟩ := entry
    rw [collect_append_singleton, keys_put, keys_append_singleton, ih, List.eraseDups_append]
    by_cases hk : k ∈ keys entries
    · simp [hk, List.removeAll]
    · simp [hk, List.removeAll, List.eraseDups_cons]

theorem mem_keys_collect {key : String} {entries : List (String × α)} :
    key ∈ keys (collect entries) ↔ key ∈ keys entries := by
  rw [keys_collect, List.mem_eraseDups]

/-- If all pairs of a name have one value, it is the value of the name. -/
theorem get?_collect {key : String} {value : α} {entries : List (String × α)}
    (hmem : key ∈ keys entries) (hvalue : ∀ entry ∈ entries, entry.1 = key → entry.2 = value) :
    get? key (collect entries) = some value := by
  induction entries using List.reverseRecOn with
  | nil => simp at hmem
  | append_singleton entries entry ih =>
    obtain ⟨k, v⟩ := entry
    rw [collect_append_singleton, get?_put]
    split
    · next hk => exact congrArg some (hvalue (k, v) (by simp) hk)
    · next hk =>
      refine ih ?_ fun entry hentry => hvalue entry (by simp [hentry])
      simpa [keys, Ne.symm hk] using hmem

theorem erase_put (key : String) (value : α) (entries : List (String × α)) :
    erase key (put key value entries) = erase key entries := by
  induction entries with
  | nil => simp [put, erase]
  | cons entry rest ih =>
    obtain ⟨k, v⟩ := entry
    by_cases hk : k = key
    · simp [put, hk, erase]
    · simpa [put, hk, erase] using ih

theorem erase_of_notMem {key : String} {entries : List (String × α)} (h : key ∉ keys entries) :
    erase key entries = entries := by
  apply List.filter_eq_self.2
  intro entry hentry
  have hne : entry.1 ≠ key := fun e => h (e ▸ List.mem_map_of_mem hentry)
  simpa using hne

theorem get?_map (f : α → β) (key : String) (entries : List (String × α)) :
    get? key (entries.map fun entry => (entry.1, f entry.2)) = (get? key entries).map f := by
  induction entries with
  | nil => rfl
  | cons entry rest ih =>
    obtain ⟨k, v⟩ := entry
    by_cases hk : k = key
    · simp [get?, hk]
    · simpa [get?, hk] using ih

/-- Of the pairs of one name the last counts. -/
theorem get?_collect_eq (key : String) (entries : List (String × α)) :
    get? key (collect entries) = get? key entries.reverse := by
  induction entries using List.reverseRecOn with
  | nil => rfl
  | append_singleton entries entry ih =>
    obtain ⟨k, v⟩ := entry
    rw [collect_append_singleton, get?_put, List.reverse_append, List.reverse_singleton,
      List.singleton_append, get?, ih]

theorem length_put (key : String) (value : α) (entries : List (String × α)) :
    (put key value entries).length =
      if key ∈ keys entries then entries.length else entries.length + 1 := by
  have hkeys := congrArg List.length (keys_put key value entries)
  rw [keys, List.length_map] at hkeys
  rw [hkeys]
  split <;> simp [keys]

/-- Pairs without repeated names are kept as they are. -/
theorem collect_eq_self {entries : List (String × α)} (h : (keys entries).Nodup) :
    collect entries = entries := by
  induction entries using List.reverseRecOn with
  | nil => rfl
  | append_singleton entries entry ih =>
    obtain ⟨k, v⟩ := entry
    rw [keys_append_singleton, List.nodup_append] at h
    rw [collect_append_singleton, ih h.1]
    exact put_of_notMem v fun hk => h.2.2 k hk k (List.mem_singleton_self k) rfl

theorem length_collect_le (entries : List (String × α)) :
    (collect entries).length ≤ entries.length := by
  induction entries using List.reverseRecOn with
  | nil => exact Nat.le_refl 0
  | append_singleton entries entry ih =>
    rw [collect_append_singleton, List.length_append, List.length_singleton, length_put]
    split <;> omega

/-- No pair is lost exactly if no name is repeated. -/
theorem length_collect_iff {entries : List (String × α)} :
    (collect entries).length = entries.length ↔ (keys entries).Nodup := by
  refine ⟨fun h => ?_, fun h => by rw [collect_eq_self h]⟩
  induction entries using List.reverseRecOn with
  | nil => exact List.nodup_nil
  | append_singleton entries entry ih =>
    obtain ⟨k, v⟩ := entry
    have hle := length_collect_le entries
    rw [collect_append_singleton, List.length_append, List.length_singleton, length_put] at h
    split at h
    · omega
    · next hk =>
      rw [keys_append_singleton, List.nodup_append]
      refine ⟨ih (by omega), by simp, fun k' hk' _ h => ?_⟩
      rw [List.mem_singleton.1 h]
      exact fun heq => hk (mem_keys_collect.2 (heq ▸ hk'))

theorem get?_eq_none_of_notMem {key : String} {entries : List (String × α)}
    (h : key ∉ keys entries) : get? key entries = none := by
  rwa [← Option.not_isSome_iff_eq_none, isSome_get?_iff]

/-- Lists without repeated names are equal if they have the same names and the same values. -/
theorem ext_of_nodup {entries entries' : List (String × α)} (hnodup : (keys entries).Nodup)
    (hkeys : keys entries = keys entries') (hget : ∀ key, get? key entries = get? key entries') :
    entries = entries' := by
  induction entries generalizing entries' with
  | nil =>
    cases entries' with
    | nil => rfl
    | cons entry rest => cases hkeys
  | cons entry rest ih =>
    cases entries' with
    | nil => cases hkeys
    | cons entry' rest' =>
      obtain ⟨k, v⟩ := entry
      obtain ⟨k', v'⟩ := entry'
      rw [keys_cons, keys_cons, List.cons.injEq] at hkeys
      rw [keys_cons, List.nodup_cons] at hnodup
      obtain ⟨rfl : k = k', hrest⟩ := hkeys
      have hvalue : v = v' := by simpa [get?] using hget k
      subst hvalue
      rw [ih hnodup.2 hrest fun key => ?_]
      by_cases hkey : k = key
      · subst hkey
        rw [get?_eq_none_of_notMem hnodup.1, get?_eq_none_of_notMem (hrest ▸ hnodup.1)]
      · simpa [get?, hkey] using hget key

end Assoc

end ParamQuery
