import ParamQuery.Proofs.Join

/-!
# Sharing related rows out

The statement for the related rows of a page compares their key column with the texts of all keys of
the page, each read as a value of that column. The rows that it returns are then shared out by the
texts of their own keys. A row that was found for a key whose text is not that of its own goes to no
row of the page.

## Main definitions

* `ColumnType.findsByText` — types of key columns for which what is found for a key has its text.
* `Wanted.takes` — a related row has the text of the key of a row of the page.

## Main statements

* `ColumnType.findsByText_iff` — these are all such types.
* `Wanted.exists_satisfies_of_loaded` — every row that is loaded equals a key of the page.
* `Wanted.shares_of_attach` — the rows loaded are shared out by the texts of their keys.
-/

namespace ParamQuery

open Text

/-! ## Whole numbers are no dates -/

namespace Cast

theorem toLower_of_isDigit {c : Char} (h : c.isDigit = true) : c.toLower = c := by
  have hall : ∀ n < 58, 48 ≤ n → (Char.ofNat n).toLower = Char.ofNat n := by decide
  simp only [Char.isDigit, Bool.and_eq_true, decide_eq_true_eq] at h
  have hdigit := hall c.toNat (Nat.lt_succ_of_le h.2) h.1
  rwa [Char.ofNat_toNat] at hdigit

/-- A text that starts with a digit starts with no word. -/
theorem dropWord?_of_digits {first : Char} {word digits : List Char} {n : Nat}
    (hfirst : first.isDigit = false) (h : Digits digits n) :
    dropWord? (first :: word) digits = none := by
  obtain ⟨c, rest, rfl⟩ := List.exists_cons_of_ne_nil h.ne_nil
  have hc : c.isDigit = true := h.isDigit c List.mem_cons_self
  rw [dropWord?, if_neg]
  intro hword
  have hsame : c.toLower = first := (List.cons.inj hword).1
  rw [toLower_of_isDigit hc] at hsame
  rw [hsame, hfirst] at hc
  cases hc

/-- The text of a whole number is digits, after a minus sign if there is one. -/
theorem digits_splitMinus_toString (n : Int) :
    Digits (splitMinus (skipSpace (toString n).toList)).2 n.natAbs := by
  have hdigits := digits_toDigits n.natAbs
  have hspace : skipSpace (toString n).toList = (toString n).toList := by
    refine List.dropWhile_eq_self_iff.2 fun hlength hspace => ?_
    have hblank := (writesInteger_toString n).not_isBlank (List.getElem_mem hlength)
    rw [isBlank_of_isSpace hspace] at hblank
    cases hblank
  rw [hspace, toList_toString]
  split
  · exact hdigits
  · rw [splitMinus]
    · exact hdigits
    · intro rest hrest
      exact (hrest ▸ hdigits).head_ne.2 rfl

theorem namedDay?_toString (n : Int) : namedDay? (toString n).toList = none := by
  have hdigits := digits_splitMinus_toString n
  unfold namedDay?
  dsimp only
  rw [dropWord?_of_digits rfl hdigits, dropWord?_of_digits rfl hdigits]
  rfl

theorem splitDate?_toString (n : Int) : splitDate? (toString n).toList = none := by
  have hdrop : (splitMinus (skipSpace (toString n).toList)).2.dropWhile Char.isDigit = [] :=
    List.dropWhile_eq_nil_iff.2 (digits_splitMinus_toString n).isDigit
  unfold splitDate?
  dsimp only
  rw [hdrop]
  cases natural? _ <;> rfl

/-- A whole number is read neither as a date nor as a time stamp. -/
theorem date?_toString (n : Int) :
    date? (toString n).toList = none ∧ timestamp? (toString n).toList = none := by
  rw [date?, timestamp?, namedDay?_toString, splitDate?_toString]
  exact ⟨rfl, rfl⟩

end Cast

/-! ## Types of key columns -/

namespace ColumnType

/-- The types of columns whose keys are read back from their texts. -/
def holdsKeys : ColumnType → Bool
  | .integer | .bigint | .varchar | .boolean => true
  | _ => false

/-- Whether all that a column of the first type has for a key of the second one has the text of the
key. So it is for a column of texts and for two columns of whole numbers. A column of dates reads no
whole number, and only columns of texts and of truth values read a truth value. -/
def findsByText : ColumnType → ColumnType → Bool
  | .varchar, _ => true
  | .double, parent | .boolean, parent => parent == .boolean
  | _, parent => parent == .integer || parent == .bigint || parent == .boolean

/-- What equals a text in a column of texts is that text. -/
theorem keyText?_of_satisfies_text {cell : Cell} {text : String}
    (h : cell.satisfies .eq (.text text) = true) : cell.keyText? = some text := by
  have hkey : ColumnType.varchar.isKey (.text text) = true := rfl
  rw [eq_of_satisfies hkey h]
  rfl

/-- A column of whole numbers reads the text of a whole number as this number, or not at all. -/
theorem eq_of_read?_toString {related : ColumnType} {range : IntegerType} {n : Int} {bound : Cell}
    (hrelated : related.wholeNumbers? = some range) (hn : IntegerType.int64.holds n = true)
    (h : related.read? (toString n) = some bound) : bound = .integer n := by
  have hwrites := writesInteger_toString n
  have htrim : WritesInteger (trim (toString n).toList) n := by
    rwa [trim_eq_self fun c hc => hwrites.not_isBlank hc]
  exact ((read?_iff_of_writesInteger hrelated htrim hn).1 h).1

/-- A column that finds whole numbers by their texts reads such a text as the number, or not at all,
unless it holds texts. -/
theorem eq_of_read?_wholeNumber {related : ColumnType} {n : Int} {bound : Cell}
    (hfinds : related.findsByText .bigint = true) (hrelated : related ≠ .varchar)
    (hn : IntegerType.int64.holds n = true) (h : related.read? (toString n) = some bound) :
    bound = .integer n := by
  obtain ⟨hdate, htimestamp⟩ := Cast.date?_toString n
  cases related with
  | integer => exact eq_of_read?_toString rfl hn h
  | bigint => exact eq_of_read?_toString rfl hn h
  | varchar => exact absurd rfl hrelated
  | double | boolean => cases hfinds
  | date =>
    rw [read?, hdate] at h
    cases h
  | timestamp =>
    rw [read?, htimestamp] at h
    cases h

/-- The text of a truth value is read as this value, or not at all, unless a column holds texts. -/
theorem eq_of_read?_boolean {related : ColumnType} {b : Bool} {bound : Cell} {text : String}
    (hrelated : related ≠ .varchar) (htext : (Cell.boolean b).keyText? = some text)
    (h : related.read? text = some bound) : bound = .boolean b := by
  cases htext
  cases related with
  | varchar => exact absurd rfl hrelated
  | boolean => cases b <;> cases h <;> rfl
  | integer | bigint | double | date | timestamp => cases b <;> cases h

/-- A column that finds keys of another type by their texts reads the text of a key as the key, or
not at all, unless it holds texts. -/
theorem eq_of_findsByText {related parent : ColumnType} (hfinds : related.findsByText parent = true)
    (hrelated : related ≠ .varchar) {key bound : Cell} {text : String}
    (hkey : parent.isKey key = true) (htext : key.keyText? = some text)
    (hbound : related.read? text = some bound) : bound = key := by
  cases parent <;> cases key <;> simp only [isKey, Bool.false_eq_true] at hkey
  case integer.integer n =>
    have hbigint : related.findsByText .bigint = true := by
      cases related <;> first | rfl | cases hfinds
    cases htext.symm.trans (Cell.keyText?_integer n)
    exact eq_of_read?_wholeNumber hbigint hrelated (int64_holds_of_int32_holds hkey) hbound
  case bigint.integer n =>
    cases htext.symm.trans (Cell.keyText?_integer n)
    exact eq_of_read?_wholeNumber hfinds hrelated hkey hbound
  case varchar.text s =>
    cases related <;> first | exact absurd rfl hrelated | cases hfinds
  case boolean.boolean b => exact eq_of_read?_boolean hrelated htext hbound

/-- What a column has for a key of a type that it finds by text has the text of the key. -/
theorem keyText?_of_findsByText {related parent : ColumnType}
    (hfinds : related.findsByText parent = true) {key bound cell : Cell} {text : String}
    (hkey : parent.isKey key = true) (htext : key.keyText? = some text)
    (hbound : related.read? text = some bound) (hcell : cell.satisfies .eq bound = true) :
    cell.keyText? = some text := by
  by_cases hrelated : related = .varchar
  · subst hrelated
    cases hbound
    exact keyText?_of_satisfies_text hcell
  · rw [eq_of_findsByText hfinds hrelated hkey htext hbound] at hcell
    rw [eq_of_satisfies hkey hcell, htext]

/-- For keys that are read back from their texts, no other types of columns are found by text: such
a column has a value for some key that has another text. -/
theorem findsByText_iff {related parent : ColumnType} (hparent : parent.holdsKeys = true) :
    related.findsByText parent = true ↔
      ∀ (key bound cell : Cell) (text : String), parent.isKey key = true →
        key.keyText? = some text → related.read? text = some bound →
        cell.satisfies .eq bound = true → cell.keyText? = some text := by
  refine ⟨fun h _ _ _ _ => keyText?_of_findsByText h, fun h => ?_⟩
  have hothers (key bound : Cell) (text : String) (hkey : parent.isKey key = true)
      (htext : key.keyText? = some text) (hbound : related.read? text = some bound)
      (hself : bound.satisfies .eq bound = true) (hne : bound.keyText? ≠ some text) :
      related.findsByText parent = true :=
    absurd (h key bound bound text hkey htext hbound hself) hne
  cases parent with
  | integer | bigint =>
    cases related with
    | double => exact hothers (.integer 1) _ "1" rfl rfl rfl rfl (by decide)
    | boolean => exact hothers (.integer 1) _ "1" rfl rfl rfl rfl (by decide)
    | integer | bigint | varchar | date | timestamp => rfl
  | varchar =>
    cases related with
    | varchar => rfl
    | integer | bigint => exact hothers (.text "01") (.integer 1) _ rfl rfl rfl rfl (by decide)
    | double => exact hothers (.text "1") _ _ rfl rfl rfl rfl (by decide)
    | boolean => exact hothers (.text "1") (.boolean true) _ rfl rfl rfl rfl (by decide)
    | date => exact hothers (.text "epoch") (.date 0) _ rfl rfl rfl rfl (by decide)
    | timestamp => exact hothers (.text "epoch") (.timestamp 0) _ rfl rfl rfl rfl (by decide)
  | boolean => cases related <;> rfl
  | double | date | timestamp => cases hparent

end ColumnType

/-! ## Sharing out -/

namespace Wanted

variable {w : Wanted} {filter : Option FilterBuckets} {db : Database} {t : Table} {index : Nat}
  {column : Column} {page rows result : List Entity}

/-- Whether a row of a page takes a related row: the texts of their keys are the same. -/
def takes (w : Wanted) (entity row : Entity) : Bool :=
  (entity.key? w.relation.parentColumn).any fun key => row.key? w.relation.relatedColumn = some key

theorem takes_iff {entity row : Entity} :
    w.takes entity row = true ↔ ∃ key, entity.key? w.relation.parentColumn = some key ∧
      row.key? w.relation.relatedColumn = some key := by
  simp [takes, Option.any_eq_true]

/-- A related row is taken by some row of a page if it has the text of one of its keys. -/
theorem exists_takes_iff {row : Entity} :
    (∃ entity ∈ page, w.takes entity row = true) ↔
      ∃ key ∈ pageKeys w.relation.parentColumn page,
        row.key? w.relation.relatedColumn = some key := by
  simp only [takes_iff, mem_pageKeys]
  constructor
  · rintro ⟨entity, hentity, key, hkey, hrow⟩
    exact ⟨key, ⟨entity, hentity, hkey⟩, hrow⟩
  · rintro ⟨key, ⟨entity, hentity, hkey⟩, hrow⟩
    exact ⟨entity, hentity, key, hkey, hrow⟩

/-- What a row of a page gets are the related rows that it takes. -/
theorem getD_bind_groupRows (w : Wanted) (rows : List Entity) (entity : Entity) :
    ((entity.key? w.relation.parentColumn).bind (w.groupRows rows).get?).getD [] =
      (rows.filter (w.takes entity)).map w.stripped := by
  unfold takes
  cases entity.key? w.relation.parentColumn with
  | none => simp
  | some key => exact w.getD_get?_groupRows rows key

/-- Every row that is loaded was found for a key of the page: its key column equals what that column
reads for the text of the key. -/
theorem exists_satisfies_of_loaded (ht : db.table w.relation.table = .ok t)
    (hfits : w.Fits t index column) (h : (w.loaded filter page).answer db = .ok rows)
    {row : Entity} (hrow : row ∈ rows) :
    ∃ key ∈ pageKeys w.relation.parentColumn page, ∃ cell bound : Cell,
      column.type.read? key = some bound ∧ cell.satisfies .eq bound = true ∧
        row.key? w.relation.relatedColumn = cell.keyText? := by
  obtain ⟨t', columns, found, ht', hcolumns, _, rfl, hholds⟩ := exists_row_of_loaded h hrow
  cases ht.symm.trans ht'
  rw [query, List.all_cons, Bool.and_eq_true, Condition.holds, List.any_eq_true] at hholds
  obtain ⟨⟨key, hkey, hcompares⟩, _⟩ := hholds
  obtain ⟨_, _, bound, hcolumn, hbound, hsatisfies⟩ := Table.compares_eq_true_iff.1 hcompares
  cases hfits.found.symm.trans hcolumn
  exact ⟨key, hkey, _, bound, hbound, hsatisfies, key?_project hfits hcolumns found⟩

/-- Whether no related row can be lost for the types of the key columns: the related column holds
texts, or all keys of the page are of a type that it finds by text. -/
def MatchesByText (w : Wanted) (type : ColumnType) (page : List Entity) : Prop :=
  type = .varchar ∨ ∃ parent : ColumnType, type.findsByText parent = true ∧
    ∀ entity ∈ page, ∃ key, HoldsKey parent w.relation.parentColumn entity key

/-- A row that was found for a key of such a type is taken. -/
theorem exists_takes_of_loaded (ht : db.table w.relation.table = .ok t)
    (hfits : w.Fits t index column) (hmatches : w.MatchesByText column.type page)
    (h : (w.loaded filter page).answer db = .ok rows) {row : Entity} (hrow : row ∈ rows) :
    ∃ entity ∈ page, w.takes entity row = true := by
  obtain ⟨text, htext, cell, bound, hbound, hcell, hkey⟩ :=
    exists_satisfies_of_loaded ht hfits h hrow
  refine exists_takes_iff.2 ⟨text, htext, ?_⟩
  rw [hkey]
  rcases hmatches with htype | ⟨parent, hfinds, hpage⟩
  · rw [htype] at hbound
    cases hbound
    exact ColumnType.keyText?_of_satisfies_text hcell
  · obtain ⟨entity, hentity, hentityKey⟩ := mem_pageKeys.1 htext
    obtain ⟨key, hholds⟩ := hpage entity hentity
    rw [hholds.key?] at hentityKey
    have hiskey : parent.isKey key = true := by
      rcases hholds.2 with rfl | hiskey
      · cases hentityKey
      · exact hiskey
    exact ColumnType.keyText?_of_findsByText hfinds hiskey hentityKey hbound hcell

/-- How the rows that the statement for a relation returns are shared out. Every row of the page has
those under the name of the relation that have the text of its own key. So a row that was returned
is lost if and only if the text of its key is not that of any key of the page. This does not happen
where the related key column holds texts or finds the keys of the page by text. -/
theorem shares_of_attach {s : Session} (hkind : w.relation.kind = .hasMany)
    (h : (w.attach filter page s).1 = .ok result) :
    ∃ rows, (w.loaded filter page s).1 = .ok rows ∧
      List.Forall₂ (fun entity entity' => entity'.get? w.relation.name =
        some (.array ((rows.filter (w.takes entity)).map fun row =>
          .object (w.stripped row).entries))) page result ∧
      (∀ row ∈ rows, (∃ entity ∈ page, w.takes entity row = true) ↔
        ∃ key ∈ pageKeys w.relation.parentColumn page,
          row.key? w.relation.relatedColumn = some key) ∧
      ∀ t index column, s.database.table w.relation.table = .ok t → w.Fits t index column →
        w.MatchesByText column.type page →
        ∀ row ∈ rows, ∃ entity ∈ page, w.takes entity row = true := by
  rw [(w.reads_attach filter page s).1] at h
  obtain ⟨rows, hloaded, rfl⟩ := answer_attach_eq_ok_iff.1 h
  refine ⟨rows, (w.reads_loaded filter page s).1.trans hloaded, ?_, fun row _ => exists_takes_iff,
    fun t index column ht hfits hmatches row => exists_takes_of_loaded ht hfits hmatches hloaded⟩
  rw [List.forall₂_map_right_iff, List.forall₂_same]
  intro entity _
  rw [get?_place, getD_bind_groupRows, nested, hkind, List.map_map]
  rfl

/-- The three orders of two people, whose keys come from a column of larger numbers, are shared out
among them. -/
theorem shares_of_orders :
    ∃ rows, (loaded ⟨.hasMany "orders" "orders" "user_id", ["total"]⟩ none
        [.ofList [("id", .int 2)], .ofList [("id", .int 1)]]
        { database := { tables := [orders "user_id"] } }).1 = .ok rows ∧
      rows.length = 3 ∧ ∀ row ∈ rows,
        ∃ entity ∈ [.ofList [("id", .int 2)], .ofList [("id", .int 1)]],
        takes ⟨.hasMany "orders" "orders" "user_id", ["total"]⟩ entity row = true := by
  obtain ⟨rows, hloaded, _, _, htaken⟩ := @shares_of_attach
    ⟨.hasMany "orders" "orders" "user_id", ["total"]⟩ none
    [.ofList [("id", .int 2)], .ofList [("id", .int 1)]] _
    { database := { tables := [orders "user_id"] } } rfl rfl
  refine ⟨rows, hloaded, ?_, htaken (orders "user_id") 1 ⟨"user_id", .integer⟩ rfl
    ⟨rfl, rfl, by decide, by decide⟩ (.inr ⟨.bigint, rfl, ?_⟩)⟩
  · cases hloaded
    rfl
  · simp only [List.forall_mem_cons]
    exact ⟨⟨.integer 2, rfl, .inr rfl⟩, ⟨.integer 1, rfl, .inr rfl⟩, by simp⟩

/-- One visit of a person, with the type and the value of its key column. -/
def visits (type : ColumnType) (person : Cell) : Table where
  name := "visits"
  columns := [⟨"id", .integer⟩, ⟨"person", type⟩]
  rows := [[.integer 1, person]]

/-- The visits of a person are returned by their statement, but are not in the row of the person. -/
def LosesVisits (key : Cell) (type : ColumnType) (person : Cell) : Prop :=
  ∃ rows entity,
    (loaded ⟨.hasMany "visits" "visits" "person", []⟩ none [.ofList [("id", key.datum.toJson)]]
      { database := { tables := [visits type person] } }).1 = .ok rows ∧
    (attach ⟨.hasMany "visits" "visits" "person", []⟩ none [.ofList [("id", key.datum.toJson)]]
      { database := { tables := [visits type person] } }).1 = .ok [entity] ∧
    rows ≠ [] ∧ entity.get? "visits" = some (.array [])

/-- Visits are lost where the key columns hold whole numbers and numbers with fractions, texts and
whole numbers, whole numbers and truth values, or dates and time stamps. -/
theorem losesVisits :
    LosesVisits (.integer 2) .double (.double (.ofRatio false 2 1)) ∧
      LosesVisits (.text "02") .integer (.integer 2) ∧
      LosesVisits (.integer 1) .boolean (.boolean true) ∧
      LosesVisits (.date 19723) .timestamp (.timestamp 1704067200000000) := by
  refine ⟨?_, ?_, ?_, ?_⟩
  · exact ⟨_, _, rfl, rfl, by decide, rfl⟩
  · exact ⟨_, _, rfl, rfl, by decide, rfl⟩
  · exact ⟨_, _, rfl, rfl, by decide, rfl⟩
  · exact ⟨_, _, rfl, rfl, by decide, rfl⟩

end Wanted

end ParamQuery
