import ParamQuery.Filter.Key
import ParamQuery.Proofs.Pieces

/-!
# Spellings of filter keys

A filter key has one full name, which ends in the acronym of its comparison. For equality the
acronym may be left out, and no other name is read as the key.

## Main definitions

* `FilterKey.fullName`, `FilterKey.parts` — the name of a key with its comparison, and the parts of
  that name.

## Main statements

* `FilterKey.spelling_of_parse` — the names that are read as a key.
* `FilterKey.spellings_of_parse` — how two names of one key differ.
-/

namespace ParamQuery

open Text

namespace FilterKey

/-- The name of a key with its comparison. -/
def fullName : FilterKey → String
  | .base column op => column ++ "_" ++ op.acronym
  | .related relation column op => relation ++ "_" ++ column ++ "_" ++ op.acronym

/-- The parts of the full name of a key. -/
def parts : FilterKey → List String
  | .base column op => [column, op.acronym]
  | .related relation column op => [relation, column, op.acronym]

theorem fullName_eq (key : FilterKey) : key.fullName = joinStrings "_" key.parts := by
  rw [← String.toList_inj]
  cases key <;> simp [fullName, parts, joinStrings, join]

/-- The parts of a name with underscores between them are the name. -/
theorem joinStrings_segments (name : String) : joinStrings "_" (segments name) = name := by
  have hparts : (segments name).map String.toList = splitOn '_' name.toList := by
    simp [segments, Function.comp_def]
  rw [← String.toList_inj, joinStrings, String.toList_ofList, hparts]
  exact join_splitOn '_' name.toList

theorem segments_ne_nil (name : String) : segments name ≠ [] :=
  mt List.map_eq_nil_iff.1 (splitOn_ne_nil '_' name.toList)

/-- Parts that are read as a key are those of its full name, or, for equality, all but the
acronym. -/
theorem parts_of_ofSegments {parts : List String} {key : FilterKey}
    (h : ofSegments parts = .ok key) : key.parts = parts ∨ key.parts = parts ++ ["eq"] := by
  match parts, h with
  | [column], h =>
    obtain rfl := Except.ok.inj h
    exact .inr rfl
  | [first, second], h =>
    rw [ofSegments] at h
    split at h
    · next op hop =>
      obtain rfl := Except.ok.inj h
      rw [← CompareOp.acronym_of_ofAcronym? hop]
      exact .inl rfl
    · obtain rfl := Except.ok.inj h
      exact .inr rfl
  | [relation, column, last], h =>
    rw [ofSegments] at h
    split at h
    · next op hop =>
      obtain rfl := Except.ok.inj h
      rw [← CompareOp.acronym_of_ofAcronym? hop]
      exact .inl rfl
    · cases h

theorem spelling_of_parse {name : String} {key : FilterKey} (h : parse name = .ok key) :
    name = key.fullName ∨ name ++ "_eq" = key.fullName := by
  unfold parse at h
  dsimp only at h
  split at h
  · cases h
  · rw [fullName_eq]
    rcases parts_of_ofSegments h with hparts | hparts
    · rw [hparts, joinStrings_segments]
      exact .inl rfl
    · rw [hparts, joinStrings_concat (segments_ne_nil name), joinStrings_segments,
        String.append_assoc]
      exact .inr rfl

/-- Two names of one key are equal, or one of them leaves out the acronym of equality. -/
theorem spellings_of_parse {name other : String} {key : FilterKey} (hname : parse name = .ok key)
    (hother : parse other = .ok key) :
    other = name ∨ other = name ++ "_eq" ∨ name = other ++ "_eq" := by
  rcases spelling_of_parse hname with hname | hname <;>
    rcases spelling_of_parse hother with hother | hother
  · exact .inl (hother.trans hname.symm)
  · exact .inr (.inr (hname.trans hother.symm))
  · exact .inr (.inl (hother.trans hname.symm))
  · exact .inl (String.append_left_inj "_eq" |>.1 (hother.trans hname.symm))

end FilterKey

end ParamQuery
