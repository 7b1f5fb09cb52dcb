import ParamQuery.Intent
import ParamQuery.Proofs.CanonicalName
import ParamQuery.Proofs.Pieces

/-!
# Entries of a list of fields

What a list of fields asks for, entry by entry. Written in canonical form it is read as the same
entries in canonical form, but for those of which nothing is left; and the selection that is made
of entries, and of which plain names of relations are told apart, holds exactly what they ask for.

## Main definitions

* `FieldToken.canonical` — an entry with its identifiers in canonical form.
* `FieldSelection.subfields` — the columns selected of a relation.

## Main statements

* `fieldTokens_canonicalFields` — the entries of a list in canonical form.
* `FieldSelection.mem_select_parse`, `FieldSelection.mem_relations_parse`,
  `FieldSelection.mem_subfields_parse` — the selection of a list of fields.
* `FieldSelection.mem_select_promoteRelations`, `FieldSelection.mem_relations_promoteRelations`,
  `FieldSelection.subfields_promoteRelations` — plain names of relations told apart.
-/

namespace ParamQuery

open Text

/-! ## Entries in canonical form -/

namespace FieldToken

/-- An entry with its identifiers in canonical form. -/
def canonical : FieldToken → FieldToken
  | .column name => .column (ParamQuery.canonical name)
  | .subfield relation field =>
    .subfield (ParamQuery.canonical relation) (ParamQuery.canonical field)

/-- What is between two commas is an entry: its identifiers hold no comma, and what stands before
the first point holds no point. -/
inductive IsEntry : FieldToken → Prop where
  | column {name : String} : ',' ∉ name.toList → '.' ∉ name.toList → IsEntry (.column name)
  | subfield {relation field : String} : ',' ∉ relation.toList → '.' ∉ relation.toList →
    ',' ∉ field.toList → IsEntry (.subfield relation field)

theorem isEntry_ofChars {piece : List Char} (h : ',' ∉ piece) : (ofChars piece).IsEntry := by
  unfold ofChars
  split
  · next relation field hsplit =>
    obtain ⟨rfl, hpoint⟩ := splitFirst_eq_some_iff.1 hsplit
    simp only [List.mem_append, List.mem_cons, not_or] at h
    apply IsEntry.subfield <;> simp [h, hpoint]
  · next hsplit =>
    have hpoint := splitFirst_eq_none_iff.1 hsplit
    apply IsEntry.column <;> simp [h, hpoint]

theorem ofChars_column {name : List Char} (h : '.' ∉ name) :
    ofChars name = .column (String.ofList name) := by
  rw [ofChars, splitFirst_eq_none_iff.2 h]

theorem ofChars_subfield {relation field : List Char} (h : '.' ∉ relation) :
    ofChars (relation ++ '.' :: field) =
      .subfield (String.ofList relation) (String.ofList field) := by
  rw [ofChars, splitFirst_eq_some_iff.2 ⟨rfl, h⟩]

variable {token : FieldToken}

/-- The canonical text of an entry is read as the entry in canonical form. -/
theorem ofChars_canonicalText (h : token.IsEntry) :
    ofChars token.canonicalText.toList = token.canonical := by
  have hpoint {name : String} (hname : '.' ∉ name.toList) :
      '.' ∉ (ParamQuery.canonical name).toList :=
    mt (mem_of_mem_canonical (by decide)) hname
  cases h with
  | column _ hname =>
    rw [canonicalText, ofChars_column (hpoint hname), String.ofList_toList]
    rfl
  | subfield _ hrelation _ =>
    have htext : ".".toList = ['.'] := rfl
    rw [canonicalText, String.toList_append, String.toList_append, htext, List.append_assoc,
      List.singleton_append, ofChars_subfield (hpoint hrelation), String.ofList_toList,
      String.ofList_toList]
    rfl

theorem not_mem_canonicalText (h : token.IsEntry) : ',' ∉ token.canonicalText.toList := by
  have hcomma {name : String} (hname : ',' ∉ name.toList) :
      ',' ∉ (ParamQuery.canonical name).toList :=
    mt (mem_of_mem_canonical (by decide)) hname
  cases h with
  | column hname _ => exact hcomma hname
  | subfield hrelation _ hfield => simp [canonicalText, hcomma hrelation, hcomma hfield]

theorem not_isBlank_canonicalText (token : FieldToken) :
    ∀ c ∈ token.canonicalText.toList, isBlank c = false := by
  intro c hc
  cases token with
  | column name => exact not_isBlank_of_mem_canonical hc
  | subfield relation field =>
    have hpoint : ".".toList = ['.'] := rfl
    rw [canonicalText, String.toList_append, String.toList_append, hpoint] at hc
    simp only [List.mem_append, List.mem_singleton] at hc
    rcases hc with (hc | rfl) | hc
    · exact not_isBlank_of_mem_canonical hc
    · decide
    · exact not_isBlank_of_mem_canonical hc

/-- Of the canonical text of an entry nothing is left if it is a name of separators only. -/
theorem canonicalText_eq_empty_iff : token.canonicalText = "" ↔ token.canonical = .column "" := by
  cases token with
  | column name => simp [canonicalText, canonical]
  | subfield relation field => simp [canonicalText, canonical]

end FieldToken

theorem isEntry_of_mem_fieldTokens {text : String} {token : FieldToken}
    (h : token ∈ fieldTokens text) : token.IsEntry := by
  simp only [fieldTokens, List.mem_map, List.mem_filter] at h
  obtain ⟨_, ⟨⟨piece, hpiece, rfl⟩, _⟩, rfl⟩ := h
  exact FieldToken.isEntry_ofChars (mt mem_of_mem_trim (not_mem_of_mem_splitOn hpiece))

/-- Texts without white space and commas, with commas between them, are the entries of a list. -/
theorem fieldTokens_joinStrings {texts : List String}
    (hcomma : ∀ text ∈ texts, ',' ∉ text.toList)
    (hblank : ∀ text ∈ texts, ∀ c ∈ text.toList, isBlank c = false) :
    fieldTokens (joinStrings "," texts) =
      (texts.filter fun text => text ≠ "").map fun text => FieldToken.ofChars text.toList := by
  have hempty (text : String) : (!text.toList.isEmpty) = decide (text ≠ "") := by
    rw [Bool.eq_iff_iff]
    simp
  have htrim : (texts.map String.toList).map trim = texts.map String.toList := by
    rw [List.map_map]
    exact List.map_congr_left fun text htext => trim_eq_self (hblank text htext)
  by_cases hnil : texts = []
  · rw [hnil]
    rfl
  have hsplit : splitOn ',' (joinStrings "," texts).toList = texts.map String.toList := by
    rw [joinStrings, String.toList_ofList]
    exact splitOn_join (by simpa using hnil) (by simpa using hcomma)
  rw [fieldTokens, hsplit, htrim, List.filter_map, List.map_map]
  simp only [Function.comp_def, hempty]

/-- A list in canonical form is read as its entries in canonical form, without names of which
nothing is left. -/
theorem fieldTokens_canonicalFields (text : String) :
    fieldTokens (canonicalFields text) =
      ((fieldTokens text).map FieldToken.canonical).filter fun token => token ≠ .column "" := by
  have hcomma : ∀ piece ∈ (fieldTokens text).map FieldToken.canonicalText, ',' ∉ piece.toList := by
    simp only [List.forall_mem_map]
    exact fun token htoken => FieldToken.not_mem_canonicalText (isEntry_of_mem_fieldTokens htoken)
  have hblank : ∀ piece ∈ (fieldTokens text).map FieldToken.canonicalText,
      ∀ c ∈ piece.toList, isBlank c = false := by
    simp only [List.forall_mem_map]
    exact fun token _ => token.not_isBlank_canonicalText
  rw [canonicalFields, fieldTokens_joinStrings hcomma hblank]
  simp only [List.filter_map, List.map_map, Function.comp_def,
    FieldToken.canonicalText_eq_empty_iff, ne_eq]
  refine List.map_congr_left fun token htoken => ?_
  exact FieldToken.ofChars_canonicalText
    (isEntry_of_mem_fieldTokens (List.mem_of_mem_filter htoken))

/-! ## Selections of entries -/

namespace FieldSelection

/-- The columns selected of a relation. -/
def subfields (s : FieldSelection) (relation : String) : List String :=
  (s.relations.get? relation).getD []

variable {s : FieldSelection} {token : FieldToken} {tokens : List FieldToken}
  {name column relation field : String} {names : List String} {allow : FieldAllowList}

theorem isEmpty_iff : s.isEmpty = true ↔ s.select = [] ∧ s.relations.keys = [] := by
  simp [isEmpty, OrderedMap.isEmpty, OrderedMap.keys, Assoc.keys]

theorem get?_of_mem_relations (h : relation ∈ s.relations.keys) :
    s.relations.get? relation = some (s.subfields relation) := by
  obtain ⟨fields, hfields⟩ := Option.isSome_iff_exists.1 (OrderedMap.contains_iff.2 h)
  rw [subfields, hfields, Option.getD_some]

theorem mem_select_addToken :
    column ∈ (s.addToken token).select ↔ column ∈ s.select ∨ token = .column column := by
  cases token with
  | column name => simp [addToken, addColumn, mem_addNew, eq_comm]
  | subfield other name => simp [addToken, addSubfield]

theorem mem_relations_addToken :
    relation ∈ (s.addToken token).relations.keys ↔
      relation ∈ s.relations.keys ∨ ∃ field, token = .subfield relation field := by
  cases token with
  | column name => simp [addToken, addColumn]
  | subfield other name =>
    simp only [addToken, addSubfield, OrderedMap.keys_update, FieldToken.subfield.injEq,
      exists_and_left, exists_eq', and_true]
    split
    · next hother => exact ⟨.inl, fun h => h.elim id fun heq => heq ▸ hother⟩
    · simp [@eq_comm _ other]

theorem mem_subfields_addToken :
    field ∈ (s.addToken token).subfields relation ↔
      field ∈ s.subfields relation ∨ field ≠ "" ∧ token = .subfield relation field := by
  cases token with
  | column name => simp [addToken, addColumn, subfields]
  | subfield other name =>
    simp only [addToken, addSubfield, subfields, OrderedMap.get?_update,
      FieldToken.subfield.injEq]
    split
    · next hother =>
      subst hother
      rw [Option.getD_some]
      split
      · next hempty =>
        rw [String.isEmpty_iff] at hempty
        grind
      · next hname =>
        rw [String.isEmpty_iff] at hname
        rw [mem_addNew]
        grind
    · next hother => simp [hother]

theorem mem_select_foldl :
    column ∈ (tokens.foldl addToken s).select ↔ column ∈ s.select ∨ .column column ∈ tokens := by
  induction tokens generalizing s with
  | nil => simp
  | cons token rest ih => simp [ih, mem_select_addToken, or_assoc, @eq_comm _ token]

theorem mem_relations_foldl :
    relation ∈ (tokens.foldl addToken s).relations.keys ↔
      relation ∈ s.relations.keys ∨ ∃ field, .subfield relation field ∈ tokens := by
  induction tokens generalizing s with
  | nil => simp
  | cons token rest ih =>
    simp [ih, mem_relations_addToken, or_assoc, exists_or, @eq_comm _ token]

theorem mem_subfields_foldl :
    field ∈ (tokens.foldl addToken s).subfields relation ↔
      field ∈ s.subfields relation ∨ field ≠ "" ∧ .subfield relation field ∈ tokens := by
  induction tokens generalizing s with
  | nil => simp
  | cons token rest ih =>
    simp [ih, mem_subfields_addToken, or_assoc, and_or_left, @eq_comm _ token]

/-- The columns of a list of fields. -/
theorem mem_select_parse {text : String} :
    column ∈ (parse text).select ↔ .column column ∈ fieldTokens text := by
  simp [parse, mem_select_foldl]

/-- The relations of a list of fields, in whole or in part. -/
theorem mem_relations_parse {text : String} :
    relation ∈ (parse text).relations.keys ↔
      ∃ field, .subfield relation field ∈ fieldTokens text := by
  simp [parse, mem_relations_foldl]

/-- The columns of the relations of a list of fields. -/
theorem mem_subfields_parse {text : String} :
    field ∈ (parse text).subfields relation ↔
      field ≠ "" ∧ .subfield relation field ∈ fieldTokens text := by
  rw [parse, mem_subfields_foldl]
  simp [subfields]

/-! ## Plain names of relations -/

/-- A plain name asks for a relation if it is that of one, and for a column otherwise. -/
def promoteColumn (allow : FieldAllowList) (s : FieldSelection) (column : String) :
    FieldSelection :=
  if allow.isRelation column then s.addRelation column else s.addColumn column

theorem promoteRelations_eq :
    s.promoteRelations allow =
      s.select.foldl (promoteColumn allow) { select := [], relations := s.relations } :=
  rfl

theorem mem_select_promoteColumn :
    column ∈ (s.promoteColumn allow name).select ↔
      column ∈ s.select ∨ column = name ∧ allow.isRelation column = false := by
  unfold promoteColumn
  split
  · next hrelation =>
    simp only [addRelation]
    grind
  · next hcolumn =>
    simp only [addColumn, mem_addNew]
    grind

theorem mem_relations_promoteColumn :
    relation ∈ (s.promoteColumn allow name).relations.keys ↔
      relation ∈ s.relations.keys ∨ relation = name ∧ allow.isRelation relation = true := by
  unfold promoteColumn
  split
  · next hrelation =>
    simp only [addRelation, OrderedMap.keys_update]
    grind
  · next hcolumn =>
    simp only [addColumn]
    grind

/-- A relation that is asked for as a whole keeps the columns that were selected of it. -/
theorem subfields_promoteColumn :
    (s.promoteColumn allow name).subfields relation = s.subfields relation := by
  unfold promoteColumn
  split
  · simp only [addRelation, subfields, OrderedMap.get?_update, id_eq]
    split
    · next hname => rw [hname, Option.getD_some]
    · rfl
  · rfl

theorem mem_select_foldl_promote :
    column ∈ (names.foldl (promoteColumn allow) s).select ↔
      column ∈ s.select ∨ column ∈ names ∧ allow.isRelation column = false := by
  induction names generalizing s with
  | nil => simp
  | cons name rest ih =>
    rw [List.foldl_cons, ih, mem_select_promoteColumn, List.mem_cons, or_and_right, or_assoc]

theorem mem_relations_foldl_promote :
    relation ∈ (names.foldl (promoteColumn allow) s).relations.keys ↔
      relation ∈ s.relations.keys ∨ relation ∈ names ∧ allow.isRelation relation = true := by
  induction names generalizing s with
  | nil => simp
  | cons name rest ih =>
    rw [List.foldl_cons, ih, mem_relations_promoteColumn, List.mem_cons, or_and_right, or_assoc]

theorem subfields_foldl_promote :
    (names.foldl (promoteColumn allow) s).subfields relation = s.subfields relation := by
  induction names generalizing s with
  | nil => rfl
  | cons name rest ih => rw [List.foldl_cons, ih, subfields_promoteColumn]

/-- Of the plain names those of relations are not columns any more. -/
theorem mem_select_promoteRelations :
    column ∈ (s.promoteRelations allow).select ↔
      column ∈ s.select ∧ allow.isRelation column = false := by
  rw [promoteRelations_eq, mem_select_foldl_promote]
  simp

/-- Plain names of relations join the relations. -/
theorem mem_relations_promoteRelations :
    relation ∈ (s.promoteRelations allow).relations.keys ↔
      relation ∈ s.relations.keys ∨ relation ∈ s.select ∧ allow.isRelation relation = true := by
  rw [promoteRelations_eq, mem_relations_foldl_promote]

/-- Plain names change nothing about the columns of relations. -/
theorem subfields_promoteRelations :
    (s.promoteRelations allow).subfields relation = s.subfields relation := by
  rw [promoteRelations_eq, subfields_foldl_promote]
  rfl

end FieldSelection

end ParamQuery
