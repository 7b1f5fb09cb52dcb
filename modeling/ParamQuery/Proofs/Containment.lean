import ParamQuery.Store.Pattern
import Mathlib.Data.List.Infix

/-!
# Searching for a text

The pattern made of a text fits exactly the texts that contain it, in any case of letters: what the
text holds of `%`, `_` and backslashes stands for itself.

## Main statements

* `Pattern.accepts_contained_iff` — the parts of such a pattern accept the superstrings of the text.
* `Pattern.acceptsFolded_containing` — the same for the pattern itself, letters in lower case.
-/

namespace ParamQuery

open Text

namespace Pattern

theorem mem_suffixes {text rest : List Char} : rest ∈ suffixes text ↔ rest <:+ text := by
  induction text with
  | nil => simp [suffixes]
  | cons c text ih => simp [suffixes, ih, List.suffix_cons_iff]

theorem accepts_anything_iff {parts : List PatternPart} {text : List Char} :
    accepts (.anything :: parts) text = true ↔
      ∃ rest, rest <:+ text ∧ accepts parts rest = true := by
  simp [accepts, mem_suffixes]

theorem accepts_chars_iff {word text : List Char} {parts : List PatternPart} :
    accepts (word.map .char ++ parts) text = true ↔
      ∃ rest, text = word ++ rest ∧ accepts parts rest = true := by
  induction word generalizing text with
  | nil => simp
  | cons c word ih =>
    cases text with
    | nil => simp [accepts]
    | cons d text =>
      simp only [List.map_cons, List.cons_append, accepts, Bool.and_eq_true, beq_iff_eq, ih,
        List.cons.injEq]
      constructor
      · rintro ⟨rfl, rest, rfl, h⟩
        exact ⟨rest, ⟨rfl, rfl⟩, h⟩
      · rintro ⟨rest, ⟨rfl, rfl⟩, h⟩
        exact ⟨rfl, rest, rfl, h⟩

/-- Between two parts that stand for any text, a word is accepted wherever it occurs. -/
theorem accepts_contained_iff {word text : List Char} :
    accepts (.anything :: (word.map .char ++ [.anything])) text = true ↔ word <:+: text := by
  have hany (rest : List Char) : accepts [.anything] rest = true :=
    accepts_anything_iff.2 ⟨[], List.nil_suffix, rfl⟩
  simp only [accepts_anything_iff, accepts_chars_iff, hany, and_true]
  constructor
  · rintro ⟨rest, hrest, after, rfl⟩
    exact (List.prefix_append word after).isInfix.trans hrest.isInfix
  · rintro ⟨before, after, rfl⟩
    exact ⟨word ++ after, by simp, after, rfl⟩

/-! ## Lower case -/

/-- Whether a character has a meaning of its own in patterns. -/
def isSpecial (c : Char) : Prop := c = '%' ∨ c = '_' ∨ c = '\\'

instance (c : Char) : Decidable (isSpecial c) := inferInstanceAs (Decidable (_ ∨ _ ∨ _))

theorem escape_cons (c : Char) (rest : List Char) :
    escape (c :: rest) = if isSpecial c then '\\' :: c :: escape rest else c :: escape rest := rfl

theorem isSpecial_toLower {c : Char} (h : c.toNat < 128) : isSpecial c.toLower ↔ isSpecial c := by
  have hall : ∀ n < 128, isSpecial (Char.ofNat n).toLower ↔ isSpecial (Char.ofNat n) := by decide
  simpa using hall c.toNat h

theorem not_isSpecial_ofNat {n : Nat} (h : 95 < n) : ¬ isSpecial (Char.ofNat n) := by
  have hn := toNat_ofNat_eq_or n
  rintro (e | e | e) <;> rw [e] at hn <;> simp at hn <;> omega

/-- No shift of the table leads down to the special characters. -/
theorem lt_of_mem_lowerShifts : ∀ run ∈ lowerShifts, 95 < (run.1 : Int) + run.2.2.2 := by
  decide +kernel

/-- A character has a meaning of its own in patterns exactly if its lower case has one. -/
theorem isSpecial_lowerChar (c : Char) : isSpecial (lowerChar c) ↔ isSpecial c := by
  unfold lowerChar
  split
  · next h => exact isSpecial_toLower h
  · next h =>
    split
    · next run hrun =>
      have hin := List.find?_some hrun
      have hlow := lt_of_mem_lowerShifts run (List.mem_of_find?_eq_some hrun)
      simp only [inRun, Bool.and_eq_true, decide_eq_true_eq] at hin
      refine iff_of_false (not_isSpecial_ofNat (by omega)) ?_
      rintro (rfl | rfl | rfl) <;> exact h (by decide)
    · rfl

theorem foldCase_escape (text : List Char) : foldCase (escape text) = escape (foldCase text) := by
  induction text with
  | nil => rfl
  | cons c text ih =>
    have hcons : foldCase (c :: text) = lowerChar c :: foldCase text := rfl
    rw [hcons, escape_cons, escape_cons, ← ih]
    by_cases hc : isSpecial c
    · rw [if_pos hc, if_pos ((isSpecial_lowerChar c).2 hc)]
      rfl
    · rw [if_neg hc, if_neg (mt (isSpecial_lowerChar c).1 hc)]
      rfl

theorem parse?_contained (word : List Char) :
    parse? ('%' :: escape word ++ ['%']) =
      some (.anything :: (word.map .char ++ [.anything])) := by
  simp [parse?, parse?_escape_append]

/-- A text fits the pattern made of a word exactly if it contains the word, in any case of
letters. -/
theorem acceptsFolded_containing (word : String) (text : List Char) :
    acceptsFolded (containing word).toList text = true ↔
      foldCase word.toList <:+: foldCase text := by
  have hfold : foldCase (containing word).toList =
      '%' :: escape (foldCase word.toList) ++ ['%'] := by
    simp only [containing, String.toList_ofList, ← foldCase_escape]
    simp [foldCase, lowerChar]
  rw [acceptsFolded, hfold, parse?_contained]
  exact accepts_contained_iff

end Pattern

end ParamQuery
