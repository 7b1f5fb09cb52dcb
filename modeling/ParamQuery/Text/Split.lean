/-!
# Splitting and joining

Text cut at a separating character, and pieces put together again.

## Main statements

* `join_splitOn` — joining the pieces with the separator gives the text back.
* `not_mem_of_mem_splitOn` — no piece holds the separator.
-/

namespace ParamQuery.Text

/-- Puts a character before the first piece. -/
def consFirst (c : Char) : List (List Char) → List (List Char)
  | [] => [[c]]
  | piece :: pieces => (c :: piece) :: pieces

/-- The pieces between the occurrences of `sep`: one more than there are occurrences. -/
def splitOn (sep : Char) : List Char → List (List Char)
  | [] => [[]]
  | c :: rest => if c = sep then [] :: splitOn sep rest else consFirst c (splitOn sep rest)

/-- What stands before and after the first `sep`, if there is one. -/
def splitFirst (sep : Char) : List Char → Option (List Char × List Char)
  | [] => none
  | c :: rest =>
    if c = sep then some ([], rest)
    else (splitFirst sep rest).map fun parts => (c :: parts.1, parts.2)

/-- The pieces one after the other, with `sep` between them. -/
def join (sep : List Char) : List (List Char) → List Char
  | [] => []
  | [piece] => piece
  | piece :: next :: pieces => piece ++ sep ++ join sep (next :: pieces)

/-- The texts one after the other, with `sep` between them. -/
def joinStrings (sep : String) (texts : List String) : String :=
  String.ofList (join sep.toList (texts.map String.toList))

theorem splitOn_ne_nil (sep : Char) (text : List Char) : splitOn sep text ≠ [] := by
  cases text with
  | nil => simp [splitOn]
  | cons c rest =>
    unfold splitOn
    split
    · simp
    · cases splitOn sep rest <;> simp [consFirst]

theorem join_consFirst (sep : List Char) (c : Char) {pieces : List (List Char)}
    (h : pieces ≠ []) : join sep (consFirst c pieces) = c :: join sep pieces := by
  match pieces, h with
  | [piece], _ => rfl
  | piece :: next :: pieces, _ => simp [consFirst, join]

theorem join_splitOn (sep : Char) (text : List Char) : join [sep] (splitOn sep text) = text := by
  induction text with
  | nil => rfl
  | cons c rest ih =>
    unfold splitOn
    split
    · next h =>
      obtain ⟨piece, pieces, hp⟩ := List.exists_cons_of_ne_nil (splitOn_ne_nil sep rest)
      rw [hp] at ih ⊢
      simp [join, ih, h]
    · rw [join_consFirst _ _ (splitOn_ne_nil sep rest), ih]

theorem not_mem_of_mem_splitOn {sep : Char} {text piece : List Char}
    (h : piece ∈ splitOn sep text) : sep ∉ piece := by
  induction text generalizing piece with
  | nil => simp_all [splitOn]
  | cons c rest ih =>
    unfold splitOn at h
    split at h
    · rcases List.mem_cons.1 h with rfl | h
      · simp
      · exact ih h
    · next hc =>
      obtain ⟨first, pieces, hp⟩ := List.exists_cons_of_ne_nil (splitOn_ne_nil sep rest)
      rw [hp] at h ih
      rcases List.mem_cons.1 h with rfl | h
      · have hfirst := ih (List.mem_cons_self ..)
        have hsep : ¬ sep = c := fun e => hc e.symm
        simp [hfirst, hsep]
      · exact ih (List.mem_cons_of_mem _ h)

theorem splitFirst_eq_none_iff {sep : Char} {text : List Char} :
    splitFirst sep text = none ↔ sep ∉ text := by
  induction text with
  | nil => simp [splitFirst]
  | cons c rest ih =>
    unfold splitFirst
    by_cases h : c = sep
    · simp [h]
    · have hsep : ¬ sep = c := fun e => h e.symm
      simp [h, ih, hsep]

theorem splitFirst_eq_some_iff {sep : Char} {text before after : List Char} :
    splitFirst sep text = some (before, after) ↔
      text = before ++ sep :: after ∧ sep ∉ before := by
  induction text generalizing before with
  | nil => simp [splitFirst]
  | cons c rest ih =>
    unfold splitFirst
    by_cases h : c = sep
    · subst h
      cases before with
      | nil => simp
      | cons b before =>
        simp only [if_true, Option.some.injEq, Prod.mk.injEq, reduceCtorEq, false_and,
          List.cons_append, List.cons.injEq, List.mem_cons, not_or, false_iff, not_and]
        intro hb hbc
        exact absurd hb.1 hbc
    · cases before with
      | nil => simp [h]
      | cons b before =>
        simp only [h, if_false, Option.map_eq_some_iff, Prod.mk.injEq, List.cons.injEq,
          Prod.exists, List.cons_append, List.mem_cons, not_or]
        constructor
        · rintro ⟨b', a', hs, ⟨rfl, rfl⟩, rfl⟩
          obtain ⟨hr, hn⟩ := ih.1 hs
          exact ⟨⟨rfl, hr⟩, fun e => h e.symm, hn⟩
        · rintro ⟨⟨rfl, hr⟩, _, hn⟩
          exact ⟨before, after, ih.2 ⟨hr, hn⟩, ⟨rfl, rfl⟩, rfl⟩

end ParamQuery.Text
