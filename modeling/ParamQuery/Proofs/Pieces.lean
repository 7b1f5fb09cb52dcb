import Mathlib.Data.List.DropRight
import ParamQuery.Text.Blank
import ParamQuery.Text.Split

/-!
# Pieces of texts

Texts without the white space at their ends, and texts cut at a character.

## Main statements

* `Text.trim_eq_self` — trimming leaves a text without white space as it is.
* `Text.splitOn_join` — pieces that were joined are cut apart again.
-/

namespace ParamQuery

/-- What is dropped from the start of a list satisfies the test. -/
theorem mem_dropWhile_of_false {α : Type} {p : α → Bool} {x : α} {xs : List α} (hx : x ∈ xs)
    (hp : p x = false) : x ∈ xs.dropWhile p := by
  rw [← List.takeWhile_append_dropWhile (p := p) (l := xs), List.mem_append] at hx
  rcases hx with hx | hx
  · rw [List.mem_takeWhile_imp hx] at hp
    cases hp
  · exact hx

namespace Text

/-! ## White space -/

theorem mem_of_mem_trim {c : Char} {text : List Char} (h : c ∈ trim text) : c ∈ text := by
  rw [trim, trimRight, List.mem_reverse] at h
  have hleft := (List.dropWhile_sublist isBlank).mem h
  exact (List.dropWhile_sublist isBlank).mem (List.mem_reverse.1 hleft)

/-- Trimming takes nothing but white space. -/
theorem mem_trim_of_not_isBlank {c : Char} {text : List Char} (hc : c ∈ text)
    (hblank : isBlank c = false) : c ∈ trim text := by
  rw [trim, trimRight, List.mem_reverse]
  refine mem_dropWhile_of_false (List.mem_reverse.2 ?_) hblank
  exact mem_dropWhile_of_false hc hblank

/-- Trimming leaves a text without white space as it is. -/
theorem trim_eq_self {text : List Char} (h : ∀ c ∈ text, isBlank c = false) : trim text = text := by
  apply trim_of_head_of_last
  · intro c hc
    exact h c (List.mem_of_mem_head? hc)
  · intro c hc
    exact h c (List.mem_of_getLast? hc)

/-! ## Cutting -/

theorem splitOn_of_notMem {sep : Char} {text : List Char} (h : sep ∉ text) :
    splitOn sep text = [text] := by
  induction text with
  | nil => rfl
  | cons c rest ih =>
    rw [List.mem_cons, not_or] at h
    rw [splitOn, if_neg (Ne.symm h.1), ih h.2, consFirst]

theorem splitOn_append_cons {sep : Char} {piece : List Char} (h : sep ∉ piece) (rest : List Char) :
    splitOn sep (piece ++ sep :: rest) = piece :: splitOn sep rest := by
  induction piece with
  | nil => simp [splitOn]
  | cons c piece ih =>
    rw [List.mem_cons, not_or] at h
    rw [List.cons_append, splitOn, if_neg (Ne.symm h.1), ih h.2, consFirst]

/-- A text is cut at its first separator in one way only. -/
theorem append_cons_inj {sep : Char} {before before' after after' : List Char}
    (h : sep ∉ before) (h' : sep ∉ before') :
    before ++ sep :: after = before' ++ sep :: after' ↔ before = before' ∧ after = after' := by
  constructor
  · intro heq
    have hfirst : splitFirst sep (before' ++ sep :: after') = some (before, after) :=
      splitFirst_eq_some_iff.2 ⟨heq.symm, h⟩
    rw [splitFirst_eq_some_iff.2 ⟨rfl, h'⟩, Option.some.injEq, Prod.mk.injEq] at hfirst
    exact ⟨hfirst.1.symm, hfirst.2.symm⟩
  · rintro ⟨rfl, rfl⟩
    rfl

/-- Pieces that were joined are cut apart again. -/
theorem splitOn_join {sep : Char} {pieces : List (List Char)} (hne : pieces ≠ [])
    (h : ∀ piece ∈ pieces, sep ∉ piece) : splitOn sep (join [sep] pieces) = pieces := by
  induction pieces with
  | nil => exact absurd rfl hne
  | cons first rest ih =>
    rw [List.forall_mem_cons] at h
    cases rest with
    | nil => exact splitOn_of_notMem h.1
    | cons second rest =>
      rw [join, List.append_assoc, List.singleton_append, splitOn_append_cons h.1,
        ih (by simp) h.2]

theorem join_concat (sep : List Char) {pieces : List (List Char)} (hne : pieces ≠ [])
    (piece : List Char) : join sep (pieces ++ [piece]) = join sep pieces ++ sep ++ piece := by
  match pieces, hne with
  | [first], _ => rfl
  | first :: second :: rest, _ =>
    have ih := join_concat sep (List.cons_ne_nil second rest) piece
    simp only [List.cons_append, join] at ih ⊢
    rw [ih]
    simp only [List.append_assoc]

/-- A text behind others has a separator before it. -/
theorem joinStrings_concat {sep : String} {texts : List String} (hne : texts ≠ []) (text : String) :
    joinStrings sep (texts ++ [text]) = joinStrings sep texts ++ sep ++ text := by
  rw [← String.toList_inj]
  simp only [joinStrings, List.map_append, List.map_cons, List.map_nil, String.toList_append,
    String.toList_ofList]
  exact join_concat sep.toList (by simpa using hne) text.toList

end Text

end ParamQuery
