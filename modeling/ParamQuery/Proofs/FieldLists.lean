import ParamQuery.Proofs.FieldTokens

/-!
# Lists of fields

What a list of fields selects, said about its text. The entries without a point are the columns. Of
the others the relation stands before the first point and its column behind it. All of them are kept
once, where they first appear, so that the order of the entries decides about orders alone.

## Main definitions

* `fieldEntries` — the entries of a list.
* `plainNames`, `relationNames`, `subfieldNames` — what entries ask for, one after the other.
* `FieldSelection.Lists` — a selection holds what entries ask for, each once.

## Main statements

* `FieldSelection.Lists.concat` — one more entry.
* `FieldSelection.lists_parse` — the selection of a list.
* `FieldSelection.reads_entries` — the same, with what follows for entries in another order.
-/

namespace ParamQuery

open Text

/-! ## Entries -/

/-- The entries of a list: what stands between its commas, without the white space around it, unless
nothing is left of it. -/
def fieldEntries (text : String) : List (List Char) :=
  ((splitOn ',' text.toList).map trim).filter fun entry => !entry.isEmpty

/-- What stands before the first point of an entry. -/
def beforePoint (entry : List Char) : String :=
  String.ofList (entry.takeWhile (· ≠ '.'))

/-- What stands behind the first point of an entry. -/
def afterPoint (entry : List Char) : String :=
  String.ofList (entry.dropWhile (· ≠ '.')).tail

/-- The entries without a point. -/
def plainNames (entries : List (List Char)) : List String :=
  (entries.filter fun entry => '.' ∉ entry).map String.ofList

/-- What stands before the first points of entries. -/
def relationNames (entries : List (List Char)) : List String :=
  (entries.filter fun entry => '.' ∈ entry).map beforePoint

/-- What stands behind the first points of the entries of a relation, where anything does. -/
def subfieldNames (relation : String) (entries : List (List Char)) : List String :=
  ((entries.filter fun entry => '.' ∈ entry ∧ beforePoint entry = relation).map afterPoint).filter
    fun field => field ≠ ""

variable {relation : String} {entries : List (List Char)} {entry : List Char}

theorem plainNames_concat :
    plainNames (entries ++ [entry]) =
      if '.' ∈ entry then plainNames entries else plainNames entries ++ [String.ofList entry] := by
  unfold plainNames
  grind

theorem relationNames_concat :
    relationNames (entries ++ [entry]) =
      if '.' ∈ entry then relationNames entries ++ [beforePoint entry]
      else relationNames entries := by
  unfold relationNames
  grind

theorem subfieldNames_concat :
    subfieldNames relation (entries ++ [entry]) =
      if '.' ∈ entry ∧ beforePoint entry = relation ∧ afterPoint entry ≠ "" then
        subfieldNames relation entries ++ [afterPoint entry]
      else subfieldNames relation entries := by
  unfold subfieldNames
  grind

theorem fieldTokens_eq (text : String) :
    fieldTokens text = (fieldEntries text).map FieldToken.ofChars := rfl

/-- An entry with a point is cut at the first one. -/
theorem takeWhile_append_tail_dropWhile (h : '.' ∈ entry) :
    entry.takeWhile (· ≠ '.') ++ '.' :: (entry.dropWhile (· ≠ '.')).tail = entry := by
  induction entry with
  | nil => cases h
  | cons c rest ih =>
    by_cases hc : c = '.'
    · simp [hc]
    · have hrest : '.' ∈ rest := by grind
      simpa [hc] using ih hrest

namespace FieldToken

theorem ofChars_of_point (h : '.' ∈ entry) :
    ofChars entry = .subfield (beforePoint entry) (afterPoint entry) := by
  have hbefore : '.' ∉ entry.takeWhile (· ≠ '.') := by
    intro hpoint
    simpa using List.mem_takeWhile_imp hpoint
  have hcut : ofChars (entry.takeWhile (· ≠ '.') ++ '.' :: (entry.dropWhile (· ≠ '.')).tail) =
      .subfield (beforePoint entry) (afterPoint entry) := ofChars_subfield hbefore
  rwa [takeWhile_append_tail_dropWhile h] at hcut

end FieldToken

/-! ## First appearances -/

theorem eraseDups_concat (names : List String) (name : String) :
    (names ++ [name]).eraseDups = FieldSelection.addNew names.eraseDups name := by
  rw [List.eraseDups_append, FieldSelection.addNew, List.removeAll]
  by_cases hname : name ∈ names
  · simp [hname]
  · simp [hname, List.eraseDups_cons]

theorem nodup_eraseDups (names : List String) : names.eraseDups.Nodup := by
  induction names using List.reverseRecOn with
  | nil => exact List.nodup_nil
  | append_singleton names name ih =>
    rw [eraseDups_concat]
    exact FieldSelection.nodup_addNew name ih

/-- The order of a list decides about the order of first appearances alone. -/
theorem perm_eraseDups {names names' : List String} (h : names.Perm names') :
    names.eraseDups.Perm names'.eraseDups := by
  apply (List.perm_ext_iff_of_nodup (nodup_eraseDups names) (nodup_eraseDups names')).2
  intro name
  rw [List.mem_eraseDups, List.mem_eraseDups]
  exact h.mem_iff

/-! ## Selections -/

namespace FieldSelection

/-- A selection holds what entries ask for, each once and where it first appears: columns,
relations, and the columns of each relation. -/
structure Lists (entries : List (List Char)) (s : FieldSelection) : Prop where
  select : s.select = (plainNames entries).eraseDups
  relations : s.relations.keys = (relationNames entries).eraseDups
  subfields : ∀ relation, s.subfields relation = (subfieldNames relation entries).eraseDups

variable {entries' : List (List Char)} {s s' : FieldSelection}

theorem keys_addSubfield (s : FieldSelection) (relation field : String) :
    (s.addSubfield relation field).relations.keys = addNew s.relations.keys relation := by
  simp only [addSubfield, OrderedMap.keys_update, addNew, List.contains_iff_mem]

theorem subfields_addSubfield (s : FieldSelection) (relation field other : String) :
    (s.addSubfield relation field).subfields other =
      if relation = other ∧ field ≠ "" then addNew (s.subfields other) field
      else s.subfields other := by
  simp only [addSubfield, subfields, OrderedMap.get?_update, String.isEmpty_iff]
  grind

/-- One more entry. -/
theorem Lists.concat (h : Lists entries s) (entry : List Char) :
    Lists (entries ++ [entry]) (s.addToken (.ofChars entry)) := by
  by_cases hpoint : '.' ∈ entry
  · rw [FieldToken.ofChars_of_point hpoint]
    refine ⟨?_, ?_, ?_⟩
    · rw [plainNames_concat, if_pos hpoint]
      exact h.select
    · rw [relationNames_concat, if_pos hpoint, eraseDups_concat, ← h.relations]
      exact keys_addSubfield s _ _
    · intro relation
      rw [addToken, subfields_addSubfield, subfieldNames_concat, h.subfields]
      simp only [hpoint, true_and]
      split
      · rw [eraseDups_concat]
      · rfl
  · rw [FieldToken.ofChars_column hpoint]
    refine ⟨?_, ?_, ?_⟩
    · rw [plainNames_concat, if_neg hpoint, eraseDups_concat, ← h.select]
      rfl
    · rw [relationNames_concat, if_neg hpoint]
      exact h.relations
    · intro relation
      rw [subfieldNames_concat, if_neg fun hentry => hpoint hentry.1]
      exact h.subfields relation

/-- The selection of a list holds what its entries ask for. -/
theorem lists_parse (text : String) : Lists (fieldEntries text) (parse text) := by
  rw [parse, fieldTokens_eq]
  induction fieldEntries text using List.reverseRecOn with
  | nil => exact ⟨rfl, rfl, fun _ => rfl⟩
  | append_singleton entries entry ih =>
    rw [List.map_append, List.foldl_append]
    exact ih.concat entry

/-- Two selections hold the same columns, relations and columns of relations, in whatever order. -/
structure SameFields (s s' : FieldSelection) : Prop where
  select : s.select.Perm s'.select
  relations : s.relations.keys.Perm s'.relations.keys
  subfields : ∀ relation, (s.subfields relation).Perm (s'.subfields relation)

theorem Lists.sameFields (h : Lists entries s) (h' : Lists entries' s')
    (hperm : entries.Perm entries') : SameFields s s' := by
  refine ⟨?_, ?_, ?_⟩
  · rw [h.select, h'.select]
    exact perm_eraseDups ((hperm.filter _).map _)
  · rw [h.relations, h'.relations]
    exact perm_eraseDups ((hperm.filter _).map _)
  · intro relation
    rw [h.subfields, h'.subfields]
    exact perm_eraseDups (((hperm.filter _).map _).filter _)

/-- What a list of fields selects: its entries without a point as columns, what stands before the
first point of the others as relations, and what stands behind it, if anything does, as columns of
these, all where they first appear. So nothing is selected twice, and with the entries in another
order the same is selected. -/
theorem reads_entries (text : String) :
    Lists (fieldEntries text) (parse text) ∧
    ((parse text).select.Nodup ∧ (parse text).relations.keys.Nodup ∧
      ∀ relation, ((parse text).subfields relation).Nodup) ∧
    ∀ other, (fieldEntries text).Perm (fieldEntries other) →
      SameFields (parse text) (parse other) := by
  have h := lists_parse text
  refine ⟨h, ⟨?_, ?_, ?_⟩, ?_⟩
  · rw [h.select]
    exact nodup_eraseDups _
  · exact (parse text).relations.nodup
  · intro relation
    rw [h.subfields]
    exact nodup_eraseDups _
  · intro other hperm
    exact h.sameFields (lists_parse other) hperm

/-- White space, empty entries and repeated ones do not count, and neither does the order. -/
theorem reads_entries_reordered :
    (fieldEntries " b.x.y ,a,, .z, b.,a ").Perm (fieldEntries "a,a,b.,.z,b.x.y") ∧
      (parse " b.x.y ,a,, .z, b.,a ").relations.keys = ["b", ""] ∧
      SameFields (parse " b.x.y ,a,, .z, b.,a ") (parse "a,a,b.,.z,b.x.y") := by
  have hperm : (fieldEntries " b.x.y ,a,, .z, b.,a ").Perm (fieldEntries "a,a,b.,.z,b.x.y") := by
    decide
  obtain ⟨_, _, hsame⟩ := reads_entries " b.x.y ,a,, .z, b.,a "
  exact ⟨hperm, by decide, hsame _ hperm⟩

end FieldSelection

end ParamQuery
