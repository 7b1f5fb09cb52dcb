/-!
# Ordered maps

Maps from names to values that remember the order in which the names first came. A name that is
put again keeps its place and takes the new value.

## Main definitions

* `Assoc` — the operations on plain lists of pairs.
* `OrderedMap` — a list of pairs in which no name occurs twice.

## Main statements

* `Assoc.get?_put` and `Assoc.keys_put` — what putting does to look-ups and to the order of names.
* `OrderedMap.get?_insert`, `OrderedMap.keys_insert` — the same for maps; likewise for the other
  operations.
-/

namespace ParamQuery

/-! ## Lists of pairs -/

namespace Assoc

variable {α β : Type}

/-- The names of a list of pairs, in order. -/
def keys (entries : List (String × α)) : List String :=
  entries.map Prod.fst

/-- The value of the first pair with this name. -/
def get? (key : String) : List (String × α) → Option α
  | [] => none
  | (k, v) :: rest => if k = key then some v else get? key rest

/-- Replaces the value of the first pair with this name, or adds a pair at the end. -/
def put (key : String) (value : α) : List (String × α) → List (String × α)
  | [] => [(key, value)]
  | (k, v) :: rest => if k = key then (k, value) :: rest else (k, v) :: put key value rest

/-- Drops every pair with this name. -/
def erase (key : String) (entries : List (String × α)) : List (String × α) :=
  entries.filter fun entry => entry.1 ≠ key

/-- Puts the pairs of a list one after the other into an empty list. -/
def collect (entries : List (String × α)) : List (String × α) :=
  entries.foldl (fun acc entry => put entry.1 entry.2 acc) []

@[simp] theorem keys_nil : keys ([] : List (String × α)) = [] := rfl

@[simp] theorem keys_cons (entry : String × α) (rest : List (String × α)) :
    keys (entry :: rest) = entry.1 :: keys rest := rfl

theorem keys_put (key : String) (value : α) (entries : List (String × α)) :
    keys (put key value entries) =
      if key ∈ keys entries then keys entries else keys entries ++ [key] := by
  induction entries with
  | nil => simp [put]
  | cons entry rest ih =>
    obtain ⟨k, v⟩ := entry
    by_cases h : k = key
    · simp [put, h]
    · have h' : key ≠ k := fun e => h e.symm
      simp only [put, h, if_false, keys_cons, ih, List.mem_cons, h', false_or]
      split <;> rfl

theorem nodup_keys_put (key : String) (value : α) {entries : List (String × α)}
    (h : (keys entries).Nodup) : (keys (put key value entries)).Nodup := by
  rw [keys_put]
  split
  · exact h
  · next hk =>
    refine List.nodup_append.2 ⟨h, by simp, fun a ha b hb => ?_⟩
    rw [List.mem_singleton.1 hb]
    exact fun e => hk (e ▸ ha)

theorem get?_put (key other : String) (value : α) (entries : List (String × α)) :
    get? other (put key value entries) =
      if key = other then some value else get? other entries := by
  induction entries with
  | nil => simp [put, get?]
  | cons entry rest ih =>
    obtain ⟨k, v⟩ := entry
    by_cases h : k = key
    · subst h
      by_cases h' : k = other <;> simp [put, get?, h']
    · have hk : ¬ key = k := fun e => h e.symm
      simp only [put, h, if_false, get?, ih]
      by_cases h' : k = other
      · subst h'
        simp [hk]
      · simp [h']

theorem keys_erase (key : String) (entries : List (String × α)) :
    keys (erase key entries) = (keys entries).filter fun k => k ≠ key := by
  simp [erase, keys, List.filter_map, Function.comp_def]

theorem get?_erase (key other : String) (entries : List (String × α)) :
    get? other (erase key entries) = if key = other then none else get? other entries := by
  induction entries with
  | nil => simp [erase, get?]
  | cons entry rest ih =>
    obtain ⟨k, v⟩ := entry
    unfold erase at ih ⊢
    by_cases h : k = key
    · subst h
      rw [List.filter_cons_of_neg (by simp), ih]
      by_cases h' : k = other <;> simp [get?, h']
    · rw [List.filter_cons_of_pos (by simpa using h)]
      by_cases h' : k = other
      · subst h'
        have hk : ¬ key = k := fun e => h e.symm
        simp [get?, hk]
      · simpa [get?, h'] using ih

theorem isSome_get?_iff {key : String} {entries : List (String × α)} :
    (get? key entries).isSome = true ↔ key ∈ keys entries := by
  induction entries with
  | nil => simp [get?]
  | cons entry rest ih =>
    obtain ⟨k, v⟩ := entry
    by_cases h : k = key
    · simp [get?, h]
    · have h' : ¬ key = k := fun e => h e.symm
      simp [get?, h, h', ih]

/-- In a list without repeated names, the value of a name is the one it is paired with. -/
theorem get?_eq_some_iff {key : String} {value : α} {entries : List (String × α)}
    (h : (keys entries).Nodup) : get? key entries = some value ↔ (key, value) ∈ entries := by
  induction entries with
  | nil => simp [get?]
  | cons entry rest ih =>
    obtain ⟨k, v⟩ := entry
    rw [keys_cons, List.nodup_cons] at h
    rw [get?, List.mem_cons, Prod.mk.injEq]
    split
    · next hk =>
      have hrest : (key, value) ∉ rest := by
        intro hmem
        have hkey : key ∈ keys rest := List.mem_map_of_mem hmem
        exact h.1 (hk ▸ hkey)
      simp [hk, hrest, eq_comm]
    · next hk =>
      have hk' : ¬ key = k := fun e => hk e.symm
      simp [ih h.2, hk']

/-- A name that is not there yet is added at the end. -/
theorem put_of_notMem {key : String} {entries : List (String × α)} (value : α)
    (h : key ∉ keys entries) : put key value entries = entries ++ [(key, value)] := by
  induction entries with
  | nil => rfl
  | cons entry rest ih =>
    rw [keys_cons, List.mem_cons, not_or] at h
    have hk : ¬ entry.1 = key := fun e => h.1 e.symm
    simp [put, hk, ih h.2]

theorem mem_of_mem_put {key : String} {value : α} {entry : String × α}
    {entries : List (String × α)} (h : entry ∈ put key value entries) :
    entry = (key, value) ∨ entry ∈ entries := by
  induction entries with
  | nil => exact .inl (List.mem_singleton.1 h)
  | cons first rest ih =>
    unfold put at h
    split at h
    · next hk =>
      rcases List.mem_cons.1 h with rfl | h
      · exact .inl (by rw [hk])
      · exact .inr (List.mem_cons_of_mem _ h)
    · rcases List.mem_cons.1 h with rfl | h
      · exact .inr List.mem_cons_self
      · exact (ih h).imp_right (List.mem_cons_of_mem _)

theorem mem_of_mem_foldl_put {entry : String × α} {entries acc : List (String × α)}
    (h : entry ∈ entries.foldl (fun acc entry => put entry.1 entry.2 acc) acc) :
    entry ∈ acc ∨ entry ∈ entries := by
  induction entries generalizing acc with
  | nil => exact .inl h
  | cons first rest ih =>
    rcases ih h with h | h
    · rcases mem_of_mem_put h with rfl | h
      · exact .inr List.mem_cons_self
      · exact .inl h
    · exact .inr (List.mem_cons_of_mem _ h)

theorem nodup_keys_erase (key : String) {entries : List (String × α)}
    (h : (keys entries).Nodup) : (keys (erase key entries)).Nodup := by
  rw [keys_erase]
  exact h.sublist List.filter_sublist

theorem nodup_keys_foldl_put (entries acc : List (String × α)) (h : (keys acc).Nodup) :
    (keys (entries.foldl (fun acc entry => put entry.1 entry.2 acc) acc)).Nodup := by
  induction entries generalizing acc with
  | nil => exact h
  | cons entry rest ih => exact ih _ (nodup_keys_put _ _ h)

theorem nodup_keys_collect (entries : List (String × α)) : (keys (collect entries)).Nodup :=
  nodup_keys_foldl_put entries [] (by simp)

end Assoc

/-! ## Maps -/

/-- A map from names to values in the order in which the names first came. -/
structure OrderedMap (α : Type) where
  entries : List (String × α)
  nodup : (Assoc.keys entries).Nodup
  deriving DecidableEq, Repr

namespace OrderedMap

variable {α β : Type}

/-- The map without names. -/
def empty : OrderedMap α := ⟨[], by simp⟩

instance : EmptyCollection (OrderedMap α) := ⟨empty⟩

instance : Inhabited (OrderedMap α) := ⟨empty⟩

/-- The names, in the order in which they first came. -/
def keys (m : OrderedMap α) : List String := Assoc.keys m.entries

/-- The values, in the order of their names. -/
def values (m : OrderedMap α) : List α := m.entries.map Prod.snd

def get? (m : OrderedMap α) (key : String) : Option α := Assoc.get? key m.entries

def contains (m : OrderedMap α) (key : String) : Bool := (m.get? key).isSome

def isEmpty (m : OrderedMap α) : Bool := m.entries.isEmpty

def size (m : OrderedMap α) : Nat := m.entries.length

/-- Puts a value under a name; a name that is there already keeps its place. -/
def insert (m : OrderedMap α) (key : String) (value : α) : OrderedMap α :=
  ⟨Assoc.put key value m.entries, Assoc.nodup_keys_put key value m.nodup⟩

/-- Changes the value of a name, starting from `initial` when the name is new. -/
def update (m : OrderedMap α) (key : String) (initial : α) (change : α → α) : OrderedMap α :=
  m.insert key (change ((m.get? key).getD initial))

/-- Takes a name out; the others keep their order. -/
def erase (m : OrderedMap α) (key : String) : OrderedMap α :=
  ⟨Assoc.erase key m.entries, Assoc.nodup_keys_erase key m.nodup⟩

/-- Keeps the names that satisfy a test. -/
def restrict (m : OrderedMap α) (keep : String → Bool) : OrderedMap α where
  entries := m.entries.filter fun entry => keep entry.1
  nodup := m.nodup.sublist (List.filter_sublist.map _)

/-- Puts the pairs of a list one after the other. -/
def ofList (entries : List (String × α)) : OrderedMap α :=
  ⟨Assoc.collect entries, Assoc.nodup_keys_collect entries⟩

/-- Changes every value and keeps the names. -/
def map (f : α → β) (m : OrderedMap α) : OrderedMap β where
  entries := m.entries.map fun entry => (entry.1, f entry.2)
  nodup := by
    have h : Assoc.keys (m.entries.map fun entry => (entry.1, f entry.2)) =
        Assoc.keys m.entries := by
      simp [Assoc.keys, Function.comp_def]
    rw [h]
    exact m.nodup

@[ext] theorem ext {m n : OrderedMap α} (h : m.entries = n.entries) : m = n := by
  cases m
  cases n
  cases h
  rfl

@[simp] theorem keys_empty : (∅ : OrderedMap α).keys = [] := rfl

@[simp] theorem get?_empty (key : String) : (∅ : OrderedMap α).get? key = none := rfl

theorem keys_insert (m : OrderedMap α) (key : String) (value : α) :
    (m.insert key value).keys = if key ∈ m.keys then m.keys else m.keys ++ [key] :=
  Assoc.keys_put key value m.entries

theorem get?_insert (m : OrderedMap α) (key other : String) (value : α) :
    (m.insert key value).get? other = if key = other then some value else m.get? other :=
  Assoc.get?_put key other value m.entries

theorem contains_iff {m : OrderedMap α} {key : String} : m.contains key = true ↔ key ∈ m.keys :=
  Assoc.isSome_get?_iff

theorem get?_eq_some_iff {m : OrderedMap α} {key : String} {value : α} :
    m.get? key = some value ↔ (key, value) ∈ m.entries :=
  Assoc.get?_eq_some_iff m.nodup

/-- What is read under a name does not depend on the order of the names. -/
theorem get?_eq_of_perm {m n : OrderedMap α} (h : m.entries.Perm n.entries) (key : String) :
    m.get? key = n.get? key := by
  refine Option.ext fun value => ?_
  rw [get?_eq_some_iff, get?_eq_some_iff, h.mem_iff]

/-- A map made from a list holds only what is in the list. -/
theorem mem_of_mem_ofList {entry : String × α} {entries : List (String × α)}
    (h : entry ∈ (ofList entries).entries) : entry ∈ entries :=
  (Assoc.mem_of_mem_foldl_put h).resolve_left (by simp)

theorem contains_insert (m : OrderedMap α) (key other : String) (value : α) :
    (m.insert key value).contains other = (key == other || m.contains other) := by
  unfold contains
  rw [get?_insert]
  by_cases h : key = other <;> simp [h]

theorem get?_update (m : OrderedMap α) (key other : String) (initial : α) (change : α → α) :
    (m.update key initial change).get? other =
      if key = other then some (change ((m.get? key).getD initial)) else m.get? other :=
  get?_insert m key other _

theorem keys_update (m : OrderedMap α) (key : String) (initial : α) (change : α → α) :
    (m.update key initial change).keys = if key ∈ m.keys then m.keys else m.keys ++ [key] :=
  keys_insert m key _

theorem get?_erase (m : OrderedMap α) (key other : String) :
    (m.erase key).get? other = if key = other then none else m.get? other :=
  Assoc.get?_erase key other m.entries

theorem get?_restrict (m : OrderedMap α) (keep : String → Bool) (name : String) :
    (m.restrict keep).get? name = if keep name = true then m.get? name else none := by
  refine Option.ext fun value => ?_
  rw [get?_eq_some_iff, restrict, List.mem_filter, ← get?_eq_some_iff]
  split <;> simp_all

theorem keys_erase (m : OrderedMap α) (key : String) :
    (m.erase key).keys = m.keys.filter fun k => k ≠ key :=
  Assoc.keys_erase key m.entries

end OrderedMap

end ParamQuery
