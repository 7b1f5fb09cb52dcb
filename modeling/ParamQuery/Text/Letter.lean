import ParamQuery.Text.LetterTable

/-!
# Cased letters

Upper case, lower case and the mapping to lower case of single characters, by Unicode's properties
`Uppercase` and `Lowercase` and its simple and full mappings.
-/

namespace ParamQuery.Text

/-- Whether a code point lies in a run. -/
def inRun (n : Nat) (first last step : Nat) : Bool :=
  first ≤ n && n ≤ last && (n - first) % step == 0

/-- The property `Uppercase`. -/
def isUpper (c : Char) : Bool :=
  if c.toNat < 128 then c.isUpper
  else upperRuns.any fun run => inRun c.toNat run.1 run.2.1 run.2.2

/-- The property `Lowercase`. -/
def isLower (c : Char) : Bool :=
  if c.toNat < 128 then c.isLower
  else lowerRuns.any fun run => inRun c.toNat run.1 run.2.1 run.2.2

/-- The single character that a character becomes in lower case. -/
def lowerChar (c : Char) : Char :=
  if c.toNat < 128 then c.toLower
  else
    match lowerShifts.find? fun run => inRun c.toNat run.1 run.2.1 run.2.2.1 with
    | some run => Char.ofNat ((c.toNat : Int) + run.2.2.2).toNat
    | none => c

/-- The text that a character becomes in lower case: the capital I with a dot above keeps the dot
as a character of its own, all others become one character. -/
def lowered (c : Char) : List Char :=
  if c = 'İ' then ['i', '\u0307'] else [lowerChar c]

/-- Text with every character replaced by its single lower case character. -/
def foldCase (text : List Char) : List Char :=
  text.map lowerChar

/-- What is no code point stands for the character with code point zero. -/
theorem toNat_ofNat_eq_or (n : Nat) : (Char.ofNat n).toNat = n ∨ (Char.ofNat n).toNat = 0 := by
  by_cases hn : n.isValidChar
  · exact .inl (by rw [Char.ofNat, dif_pos hn]; rfl)
  · exact .inr (by rw [Char.ofNat, dif_neg hn]; rfl)

example : lowered 'Ä' = ['ä'] := by decide
example : isUpper 'ǅ' = false ∧ isLower 'ǅ' = false := by decide
example : isUpper '𝐀' = true ∧ lowered '𝐀' = ['𝐀'] := by decide

end ParamQuery.Text
