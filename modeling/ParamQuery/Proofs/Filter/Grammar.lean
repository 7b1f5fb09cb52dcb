import ParamQuery.Proofs.Filter.Spelling

/-!
# The grammar of filter keys

Which names are read as filter keys, and how far a key determines the name that it was read from.

## Main statements

* `FilterKey.segments_eq_iff` — the parts of a name.
* `FilterKey.exists_ofSegments_iff` — the parts that make up a key.
* `FilterKey.parse_fullName` — the full name of a key that was read is read as the same key.
* `FilterKey.reads_names` — the names that are read as keys, and those that are read alike.
-/

namespace ParamQuery

open Text

namespace FilterKey

variable {name : String} {texts : List String} {key : FilterKey}

/-! ## Parts of names -/

theorem not_mem_of_mem_segments {part : String} (h : part ∈ segments name) :
    '_' ∉ part.toList := by
  obtain ⟨piece, hpiece, rfl⟩ := List.mem_map.1 h
  rw [String.toList_ofList]
  exact not_mem_of_mem_splitOn hpiece

/-- The parts of a name are the texts without underscores that make up the name when underscores are
put between them. -/
theorem segments_eq_iff :
    segments name = texts ↔
      texts ≠ [] ∧ joinStrings "_" texts = name ∧ ∀ text ∈ texts, '_' ∉ text.toList := by
  constructor
  · intro h
    subst h
    exact ⟨segments_ne_nil name, joinStrings_segments name, fun part => not_mem_of_mem_segments⟩
  · intro ⟨hne, hname, htexts⟩
    subst hname
    have hsplit : splitOn '_' (join ['_'] (texts.map String.toList)) = texts.map String.toList :=
      splitOn_join (by simpa using hne) (by simpa using htexts)
    rw [segments, joinStrings, String.toList_ofList]
    exact (congrArg (List.map String.ofList) hsplit).trans (by simp [Function.comp_def])

/-! ## Parts of keys -/

/-- One part is a key, and so are two; three are if the last of them is an acronym. -/
theorem exists_ofSegments_iff :
    (∃ key, ofSegments texts = .ok key) ↔
      1 ≤ texts.length ∧ texts.length ≤ 3 ∧
        (texts.length = 3 → ∃ op : CompareOp, texts.getLast? = some op.acronym) := by
  match texts with
  | [] => simp [ofSegments]
  | [column] => simp [ofSegments]
  | [first, second] =>
    have hkey : ∃ key, ofSegments [first, second] = .ok key := by
      simp only [ofSegments]
      split <;> exact ⟨_, rfl⟩
    simp [hkey]
  | [relation, column, last] =>
    simp only [ofSegments]
    split
    · next op hop =>
      have hlast : ∃ op : CompareOp, last = op.acronym :=
        ⟨op, (CompareOp.acronym_of_ofAcronym? hop).symm⟩
      simp [hlast]
    · next hop =>
      have hlast (op : CompareOp) : last ≠ op.acronym := by
        intro heq
        subst heq
        cases (CompareOp.ofAcronym?_acronym op).symm.trans hop
      simp [hlast]
  | _ :: _ :: _ :: _ :: _ => simp [ofSegments]

theorem ofSegments_parts (key : FilterKey) : ofSegments key.parts = .ok key := by
  cases key <;> simp [parts, ofSegments, CompareOp.ofAcronym?_acronym]

/-- A name is read as the key that its parts make up, if none of them is empty. -/
theorem parse_eq_ok_iff :
    parse name = .ok key ↔
      (∀ part ∈ segments name, part ≠ "") ∧ ofSegments (segments name) = .ok key := by
  have hany : (segments name).any String.isEmpty = true ↔ ¬ ∀ part ∈ segments name, part ≠ "" := by
    simp
  unfold parse
  dsimp only
  split
  · next hempty => exact ⟨nofun, fun h => absurd h.1 (hany.1 hempty)⟩
  · next hempty => exact ⟨fun h => ⟨not_not.1 (mt hany.2 hempty), h⟩, And.right⟩

/-- The full name of a key that was read is read as the same key. -/
theorem parse_fullName (h : parse name = .ok key) : parse key.fullName = .ok key := by
  obtain ⟨hne, hkey⟩ := parse_eq_ok_iff.1 h
  -- the full name has the parts of the name, and perhaps the acronym of equality behind them
  have hparts : ∀ part ∈ key.parts, part ≠ "" ∧ '_' ∉ part.toList := by
    intro part hpart
    have hmem : part ∈ segments name ∨ part = "eq" := by
      rcases parts_of_ofSegments hkey with heq | heq <;> grind
    rcases hmem with hmem | rfl
    · exact ⟨hne part hmem, not_mem_of_mem_segments hmem⟩
    · decide
  have hsegments : segments key.fullName = key.parts := by
    apply segments_eq_iff.2
    refine ⟨?_, key.fullName_eq.symm, fun part hpart => (hparts part hpart).2⟩
    cases key <;> simp [parts]
  apply parse_eq_ok_iff.2
  rw [hsegments]
  exact ⟨fun part hpart => (hparts part hpart).1, key.ofSegments_parts⟩

/-! ## The grammar -/

theorem exists_parse_iff :
    (∃ key, parse name = .ok key) ↔
      (∀ part ∈ segments name, part ≠ "") ∧ ∃ key, ofSegments (segments name) = .ok key := by
  simp only [parse_eq_ok_iff, exists_and_left]

/-- A name is read as a key if underscores cut it into one, two or three parts, none of them empty,
and the last of three is an acronym. The full name of the key is this name or ends in the acronym of
equality behind it, and it is read as the same key. So two names of one key differ in this acronym
alone. -/
theorem reads_names (name : String) :
    ((∃ key, parse name = .ok key) ↔
      (∀ part ∈ segments name, part ≠ "") ∧ 1 ≤ (segments name).length ∧
        (segments name).length ≤ 3 ∧ ((segments name).length = 3 →
          ∃ op : CompareOp, (segments name).getLast? = some op.acronym)) ∧
    (∀ key, parse name = .ok key →
      (key.fullName = name ∨ key.fullName = name ++ "_eq") ∧ parse key.fullName = .ok key) ∧
    ∀ other key, other ≠ name → parse name = .ok key → parse other = .ok key →
      other = name ++ "_eq" ∨ name = other ++ "_eq" := by
  refine ⟨?_, ?_, ?_⟩
  · rw [exists_parse_iff, exists_ofSegments_iff]
  · intro key hkey
    exact ⟨(spelling_of_parse hkey).imp Eq.symm Eq.symm, parse_fullName hkey⟩
  · intro other key hne hname hother
    exact (spellings_of_parse hname hother).resolve_left hne

/-- A relation that is called like a comparison is read as a relation with and without the acronym
of equality. -/
theorem reads_names_of_namesake :
    ∃ key, parse "gt_name" = .ok key ∧ parse "gt_name_eq" = .ok key ∧
      (key.fullName = "gt_name" ∨ key.fullName = "gt_name" ++ "_eq") ∧
      parse key.fullName = .ok key ∧
      ("gt_name_eq" = "gt_name" ++ "_eq" ∨ "gt_name" = "gt_name_eq" ++ "_eq") := by
  obtain ⟨-, hread, halike⟩ := reads_names "gt_name"
  obtain ⟨hname, hsame⟩ := hread (.related "gt" "name" .eq) rfl
  exact ⟨_, rfl, rfl, hname, hsame, halike "gt_name_eq" _ (by decide) rfl rfl⟩

end FilterKey

end ParamQuery
