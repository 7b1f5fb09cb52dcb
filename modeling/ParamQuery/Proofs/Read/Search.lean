import ParamQuery.Proofs.Read.Total

/-!
# What a search finds

A search finds the rows in which the text of one of the columns searched contains the text searched
for, in any case of letters. What patterns mean is said here apart from how they are carried out, so
that a text with `%`, `_` or backslashes in it is seen to stand for itself.

## Main definitions

* `Pattern.Fits` — the texts that a pattern stands for.

## Main statements

* `Pattern.acceptsFolded_iff` — patterns are carried out as they are meant.
* `Pattern.fits_containing_iff` — the pattern made of a text stands for the texts that contain it.
* `Table.finds_contained` — the rows that the condition of a search holds of.
-/

namespace ParamQuery

open Text

namespace Pattern

/-- The texts that a pattern stands for: `%` stands for any text, `_` for any character, a character
after a backslash for itself, and so does any other character. -/
inductive Fits : List Char → List Char → Prop where
  | nil : Fits [] []
  | anything {pattern rest : List Char} (before : List Char) (h : Fits pattern rest) :
    Fits ('%' :: pattern) (before ++ rest)
  | anyChar {pattern rest : List Char} (c : Char) (h : Fits pattern rest) :
    Fits ('_' :: pattern) (c :: rest)
  | escaped {pattern rest : List Char} (c : Char) (h : Fits pattern rest) :
    Fits ('\\' :: c :: pattern) (c :: rest)
  | plain {pattern rest : List Char} {c : Char} (hc : ¬ isSpecial c) (h : Fits pattern rest) :
    Fits (c :: pattern) (c :: rest)

theorem parse?_cons_of_not_isSpecial {c : Char} (h : ¬ isSpecial c) (rest : List Char) :
    parse? (c :: rest) = (parse? rest).map (.char c :: ·) := by
  simp only [isSpecial, not_or] at h
  rw [parse?]
  · exact h.1
  · exact h.2.1
  · exact fun e => absurd e h.2.2
  · exact fun _ _ e => absurd e h.2.2

/-- A text that a pattern stands for is accepted by the parts of the pattern. -/
theorem Fits.exists_accepts {pattern text : List Char} (h : Fits pattern text) :
    ∃ parts, parse? pattern = some parts ∧ accepts parts text = true := by
  induction h with
  | nil => exact ⟨[], rfl, rfl⟩
  | anything before h ih =>
    obtain ⟨parts, hparts, haccepts⟩ := ih
    refine ⟨.anything :: parts, by simp [parse?, hparts], ?_⟩
    exact accepts_anything_iff.2 ⟨_, List.suffix_append _ _, haccepts⟩
  | anyChar c h ih =>
    obtain ⟨parts, hparts, haccepts⟩ := ih
    exact ⟨.anyChar :: parts, by simp [parse?, hparts], haccepts⟩
  | escaped c h ih =>
    obtain ⟨parts, hparts, haccepts⟩ := ih
    exact ⟨.char c :: parts, by simp [parse?, hparts], by simp [accepts, haccepts]⟩
  | @plain pattern rest c hc h ih =>
    obtain ⟨parts, hparts, haccepts⟩ := ih
    refine ⟨.char c :: parts, ?_, by simp [accepts, haccepts]⟩
    rw [parse?_cons_of_not_isSpecial hc, hparts, Option.map_some]

theorem exists_of_accepts_char {c : Char} {parts : List PatternPart} {text : List Char}
    (h : accepts (.char c :: parts) text = true) :
    ∃ rest, text = c :: rest ∧ accepts parts rest = true := by
  simpa using accepts_chars_iff.1 (show accepts ([c].map .char ++ parts) text = true from h)

/-- A pattern stands for the texts that its parts accept. -/
theorem fits_of_accepts {pattern text : List Char} {parts : List PatternPart}
    (hparts : parse? pattern = some parts) (h : accepts parts text = true) :
    Fits pattern text := by
  fun_induction parse? pattern generalizing parts text with
  | case1 =>
    cases hparts
    rw [List.isEmpty_iff.1 h]
    exact .nil
  | case2 pattern ih =>
    obtain ⟨parts, hpattern, rfl⟩ := Option.map_eq_some_iff.1 hparts
    obtain ⟨rest, ⟨before, rfl⟩, hrest⟩ := accepts_anything_iff.1 h
    exact .anything before (ih hpattern hrest)
  | case3 pattern ih =>
    obtain ⟨parts, hpattern, rfl⟩ := Option.map_eq_some_iff.1 hparts
    cases text with
    | nil => cases h
    | cons c rest => exact .anyChar c (ih hpattern h)
  | case4 => cases hparts
  | case5 c pattern ih =>
    obtain ⟨parts, hpattern, rfl⟩ := Option.map_eq_some_iff.1 hparts
    obtain ⟨rest, rfl, hrest⟩ := exists_of_accepts_char h
    exact .escaped c (ih hpattern hrest)
  | case6 c pattern hany hchar hend hescape ih =>
    obtain ⟨parts, hpattern, rfl⟩ := Option.map_eq_some_iff.1 hparts
    obtain ⟨rest, rfl, hrest⟩ := exists_of_accepts_char h
    refine .plain ?_ (ih hpattern hrest)
    rintro (rfl | rfl | rfl)
    · exact hany rfl
    · exact hchar rfl
    · cases pattern with
      | nil => exact hend rfl rfl
      | cons d pattern => exact hescape d pattern rfl rfl

/-- Patterns are carried out as they are meant, with pattern and text in lower case. A pattern that
ends in a single backslash stands for no text. -/
theorem acceptsFolded_iff {pattern text : List Char} :
    acceptsFolded pattern text = true ↔ Fits (foldCase pattern) (foldCase text) := by
  unfold acceptsFolded
  constructor
  · intro h
    split at h
    · next parts hparts => exact fits_of_accepts hparts h
    · cases h
  · intro h
    obtain ⟨parts, hparts, haccepts⟩ := h.exists_accepts
    simpa [hparts] using haccepts

/-- The pattern made of a text stands for the texts that contain it, in any case of letters. -/
theorem fits_containing_iff {word : String} {text : List Char} :
    Fits (foldCase (containing word).toList) (foldCase text) ↔
      foldCase word.toList <:+: foldCase text := by
  rw [← acceptsFolded_iff, acceptsFolded_containing]

end Pattern

/-- Only null has no text. -/
theorem Cell.searchText?_eq_none_iff {cell : Cell} : cell.searchText? = none ↔ cell = .null := by
  cases cell with
  | boolean b => cases b <;> simp [searchText?]
  | _ => simp [searchText?]

namespace Table

variable {t : Table} {columns : List String} {pattern : String}

theorem cellText?_eq_some_iff {row : Row} {name : String} {text : List Char} :
    t.cellText? row name = some text ↔ ∃ index column, t.column name = .ok (index, column) ∧
      row.cell index ≠ .null ∧ (row.cell index).searchText? = some text := by
  unfold cellText?
  cases hcolumn : t.column name with
  | error fault => simp
  | ok entry =>
    obtain ⟨index, column⟩ := entry
    simp only [Except.ok.injEq, Prod.mk.injEq]
    constructor
    · intro htext
      refine ⟨index, column, ⟨rfl, rfl⟩, ?_, htext⟩
      rw [ne_eq, ← Cell.searchText?_eq_none_iff, htext]
      exact Option.some_ne_none text
    · rintro ⟨_, _, ⟨rfl, rfl⟩, _, htext⟩
      exact htext

/-- The condition of a search can be tested if the columns searched are columns of the table. -/
theorem exists_test_search_iff :
    (∃ test, t.test (.search columns pattern) = .ok test) ↔
      ∀ name ∈ columns, ∃ entry, t.column name = .ok entry := by
  simp only [test, bind_eq_ok_iff, pure_eq_ok_iff]
  constructor
  · rintro ⟨_, found, hfound, rfl⟩ name hname
    obtain ⟨entry, _, hentry⟩ := exists_mem_right_of_forall₂ (mapM_eq_ok_iff.1 hfound) hname
    exact ⟨entry, hentry⟩
  · intro h
    obtain ⟨found, hfound⟩ := exists_mapM_eq_ok h
    exact ⟨_, found, hfound, rfl⟩

/-- Testing the condition of a search never fails, and says whether the text of one of the columns
fits the pattern. -/
theorem holds_search {test : Test} (h : t.test (.search columns pattern) = .ok test) (row : Row) :
    ∃ b, test.holds row = .ok b ∧
      (b = true ↔ ∃ name ∈ columns, ∃ text, t.cellText? row name = some text ∧
        Pattern.Fits (foldCase pattern.toList) (foldCase text)) := by
  obtain ⟨b, hb⟩ : ∃ b, test.holds row = .ok b := by
    obtain ⟨found, _, h⟩ := bind_eq_ok_iff.1 h
    cases h
    exact ⟨_, rfl⟩
  refine ⟨b, hb, ?_⟩
  rw [← Condition.holds_eq h hb]
  simp only [Condition.holds, List.any_eq_true, Option.any_eq_true, Pattern.acceptsFolded_iff]

/-- A search for a text that is not empty, in some columns, adds one condition. It can be tested in
a table with these columns. It holds of the rows in which the text of one of the columns fits the
pattern, and these are the rows in which one of the columns is not null and its text contains the
text searched for, in any case of letters. The label column, if there is one, stands in for the
first column. -/
theorem finds_contained (m : Model) {q : String} {fields : List String} (hq : q ≠ "")
    (hfields : fields ≠ []) (t : Table) :
    searchConditions q fields m.labelColumn =
        [.search (m.searched fields) (Pattern.containing q)] ∧
      ((∃ test, t.test (.search (m.searched fields) (Pattern.containing q)) = .ok test) ↔
        ∀ name ∈ m.searched fields, ∃ entry, t.column name = .ok entry) ∧
      ∀ test, t.test (.search (m.searched fields) (Pattern.containing q)) = .ok test →
        ∀ row, ∃ b, test.holds row = .ok b ∧
          (b = true ↔ ∃ name ∈ m.searched fields, ∃ text, t.cellText? row name = some text ∧
            Pattern.Fits (foldCase (Pattern.containing q).toList) (foldCase text)) ∧
          (b = true ↔ ∃ name ∈ m.searched fields, ∃ index column,
            t.column name = .ok (index, column) ∧ row.cell index ≠ .null ∧
              ∃ text, (row.cell index).searchText? = some text ∧
                foldCase q.toList <:+: foldCase text) := by
  refine ⟨?_, exists_test_search_iff, ?_⟩
  · cases fields with
    | nil => exact absurd rfl hfields
    | cons first rest => simp [searchConditions, Model.searched, hq]
  · intro test htest row
    obtain ⟨b, hb, hfits⟩ := holds_search htest row
    refine ⟨b, hb, hfits, hfits.trans ?_⟩
    simp only [Pattern.fits_containing_iff, cellText?_eq_some_iff]
    refine exists_congr fun name => and_congr_right fun _ => ?_
    constructor
    · rintro ⟨text, ⟨index, column, hcolumn, hnull, htext⟩, hcontains⟩
      exact ⟨index, column, hcolumn, hnull, text, htext, hcontains⟩
    · rintro ⟨index, column, hcolumn, hnull, text, htext, hcontains⟩
      exact ⟨text, ⟨index, column, hcolumn, hnull, htext⟩, hcontains⟩

/-- Offers with a title that can be missing. -/
def offers : Table where
  name := "offers"
  columns := [⟨"id", .integer⟩, ⟨"title", .varchar⟩, ⟨"note", .varchar⟩, ⟨"code", .varchar⟩]

/-- A search for a text with special characters finds the offer that holds just these characters,
and neither one that the text would fit as a pattern nor one that holds them in the column that the
label stands in for. -/
theorem finds_offers :
    ∃ test, offers.test (.search ["title", "code"] (Pattern.containing "x5%_\\")) = .ok test ∧
      test.holds [.integer 1, .null, .null, .text "(X5%_\\)"] = .ok true ∧
      test.holds [.integer 2, .text "x599a", .null, .text "x5 a\\"] = .ok false ∧
      test.holds [.integer 3, .null, .text "x5%_\\", .null] = .ok false := by
  obtain ⟨_, hexists, hrows⟩ := @finds_contained { table := "offers", labelColumn := some "title" }
    "x5%_\\" ["note", "code"] (by decide) (by decide) offers
  have hcolumns : ∀ name ∈ ["title", "code"], ∃ entry, offers.column name = .ok entry := by
    rw [List.forall_mem_cons, List.forall_mem_singleton]
    exact ⟨⟨_, rfl⟩, ⟨_, rfl⟩⟩
  obtain ⟨test, htest⟩ := hexists.2 hcolumns
  refine ⟨test, htest, ?_, ?_, ?_⟩
  · obtain ⟨b, hb, _, hiff⟩ := hrows test htest _
    rw [hb, hiff.2]
    exact ⟨"code", by decide, 3, ⟨"code", .varchar⟩, rfl, by decide, _, rfl, by decide⟩
  · obtain ⟨b, hb, _, hiff⟩ := hrows test htest _
    rw [hb, Bool.eq_false_iff.2 (mt hiff.1 _)]
    rintro ⟨name, hname, index, column, hcolumn, _, text, htext, hcontains⟩
    rcases List.mem_cons.1 hname with rfl | hname
    · cases hcolumn
      cases htext
      exact absurd hcontains (by decide)
    · cases List.mem_singleton.1 hname
      cases hcolumn
      cases htext
      exact absurd hcontains (by decide)
  · obtain ⟨b, hb, _, hiff⟩ := hrows test htest _
    rw [hb, Bool.eq_false_iff.2 (mt hiff.1 _)]
    rintro ⟨name, hname, index, column, hcolumn, hnull, _⟩
    rcases List.mem_cons.1 hname with rfl | hname
    · cases hcolumn
      exact hnull rfl
    · cases List.mem_singleton.1 hname
      cases hcolumn
      exact hnull rfl

end Table

end ParamQuery
