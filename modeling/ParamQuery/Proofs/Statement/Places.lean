import ParamQuery.Store.Statement

/-!
# Bound texts in their places

The text of a statement is cut into tokens: names between double quotes, texts between single
quotes, question marks, and all other characters one by one. Whatever the names are, they come back
as they were, and the question marks outside quotes take the bound texts one after the other, each
in the condition, the list or the assignment that it belongs to.

## Main definitions

* `Sql.Token`, `Sql.lex` — the tokens of a text.
* `Sql.fill?` — tokens with bound texts in place of the question marks.
* `Sql.Reads` — a part of a text and the texts bound in it are read as given tokens.
* `Statement.names`, `Statement.written` — the names in a statement, and its tokens with every text
  in its place.

## Main statements

* `Sql.lex_quoteName` — a quoted name is read back.
* `Sql.Reads.append`, `Sql.reads_join` — parts are read one after the other.
* `Statement.reads_sql` — a statement is read with every bound text in its place.
* `Sql.binds_in_place` — names, numbers of question marks and places of bound texts.
-/

namespace ParamQuery

namespace Sql

/-! ## Tokens -/

/-- A part of the text of a statement. -/
inductive Token where
  /-- A name between double quotes. -/
  | name (text : String)
  /-- A text between single quotes. -/
  | string (text : String)
  /-- A question mark that waits for a text. -/
  | mark
  /-- A text that was bound. -/
  | value (text : String)
  /-- Any other character. -/
  | sign (c : Char)
  deriving DecidableEq, Repr

@[simp] def Token.name? : Token → Option String
  | .name text => some text
  | _ => none

/-- Where the reader of a text is. -/
inductive Position where
  | outside
  /-- After a quote, with what was read since. -/
  | inside (quote : Char) (read : List Char)
  /-- After a quote that ends what was read, unless it is followed by another one. -/
  | ending (quote : Char) (read : List Char)
  deriving DecidableEq, Repr

def isQuote (c : Char) : Bool := c == '"' || c == '\''

/-- What stood between two quotes. -/
def quoted (quote : Char) (read : List Char) : Token :=
  if quote = '"' then .name (String.ofList read) else .string (String.ofList read)

/-- Reads a character outside quotes. -/
def Position.start (c : Char) : List Token × Position :=
  if isQuote c then ([], .inside c [])
  else if c = '?' then ([.mark], .outside)
  else ([.sign c], .outside)

/-- Reads a character. Between quotes, a doubled quote stands for a single one. -/
def Position.step : Position → Char → List Token × Position
  | .outside, c => start c
  | .inside quote read, c =>
    if c = quote then ([], .ending quote read) else ([], .inside quote (read ++ [c]))
  | .ending quote read, c =>
    if c = quote then ([], .inside quote (read ++ [c]))
    else (quoted quote read :: (start c).1, (start c).2)

/-- The tokens of the rest of a text; none if a quote is left open. -/
def lexFrom : Position → List Char → Option (List Token)
  | .outside, [] => some []
  | .inside _ _, [] => none
  | .ending quote read, [] => some [quoted quote read]
  | p, c :: rest => (lexFrom (p.step c).2 rest).map ((p.step c).1 ++ ·)

/-- The tokens of a text. -/
def lex (text : List Char) : Option (List Token) := lexFrom .outside text

/-- A character that stands for itself outside quotes. -/
def isPlain (c : Char) : Bool := !isQuote c && c != '?'

/-- The tokens of a text without quotes and question marks. -/
def signs (text : String) : List Token := text.toList.map .sign

theorem lex_cons {c : Char} (hc : isPlain c = true) (rest : List Char) :
    lex (c :: rest) = (lex rest).map (.sign c :: ·) := by
  obtain ⟨hquote, hmark⟩ : isQuote c = false ∧ c ≠ '?' := by simpa [isPlain] using hc
  simp [lex, lexFrom, Position.step, Position.start, hquote, hmark]

theorem lex_mark (rest : List Char) : lex ('?' :: rest) = (lex rest).map (.mark :: ·) := rfl

/-- What was quoted ends before a character that is not the quote. -/
theorem lexFrom_ending {quote : Char} (read : List Char) {rest : List Char}
    (hrest : rest.head? ≠ some quote) :
    lexFrom (.ending quote read) rest = (lex rest).map (quoted quote read :: ·) := by
  cases rest with
  | nil => rfl
  | cons c rest =>
    have hc : c ≠ quote := by simpa using hrest
    simp [lex, lexFrom, Position.step, hc, Function.comp_def]

/-- A name with its quotes doubled is read as it was. -/
theorem lexFrom_inside (name read rest : List Char) :
    lexFrom (.inside '"' read)
        (name.flatMap (fun c => if c = '"' then ['"', '"'] else [c]) ++ rest) =
      lexFrom (.inside '"' (read ++ name)) rest := by
  induction name generalizing read with
  | nil => simp
  | cons c name ih =>
    by_cases hc : c = '"'
    · simp [hc, lexFrom, Position.step, ih]
    · simp [hc, lexFrom, Position.step, ih]

theorem lex_quoteName (name : String) {rest : List Char} (hrest : rest.head? ≠ some '"') :
    lex ((quoteName name).toList ++ rest) = (lex rest).map (.name name :: ·) := by
  have hstart : lex ((quoteName name).toList ++ rest) = lexFrom (.inside '"' [])
      (name.toList.flatMap (fun c => if c = '"' then ['"', '"'] else [c]) ++ '"' :: rest) := by
    simp [quoteName, lex, lexFrom, Position.step, Position.start, isQuote]
  have hend : lexFrom (.inside '"' name.toList) ('"' :: rest) =
      lexFrom (.ending '"' name.toList) rest := by
    simp [lexFrom, Position.step]
  rw [hstart, lexFrom_inside, List.nil_append, hend, lexFrom_ending _ hrest]
  simp [quoted]

/-! ## Bound texts -/

/-- Tokens with bound texts in place of the question marks, one after the other; there must be as
many of them. -/
def fill? : List Token → List String → Option (List Token)
  | [], [] => some []
  | [], _ :: _ => none
  | token :: rest, binds =>
    if token = .mark then
      match binds with
      | [] => none
      | text :: binds => (fill? rest binds).map (.value text :: ·)
    else (fill? rest binds).map (token :: ·)

/-- Tokens are filled if there are as many texts as question marks. -/
theorem count_of_fill? {tokens written : List Token} {binds : List String}
    (h : fill? tokens binds = some written) : tokens.count .mark = binds.length := by
  fun_induction fill? tokens binds generalizing written with
  | case1 => rfl
  | case2 | case3 => cases h
  | case4 rest text binds ih =>
    obtain ⟨later, hlater, _⟩ := Option.map_eq_some_iff.1 h
    simp [ih hlater]
  | case5 binds token rest htoken ih =>
    obtain ⟨later, hlater, _⟩ := Option.map_eq_some_iff.1 h
    simp [htoken, ih hlater]

/-- No name is lost or added when texts are bound. -/
theorem names_of_fill? {tokens written : List Token} {binds : List String}
    (h : fill? tokens binds = some written) :
    tokens.filterMap Token.name? = written.filterMap Token.name? := by
  fun_induction fill? tokens binds generalizing written with
  | case1 =>
    cases h
    rfl
  | case2 | case3 => cases h
  | case4 rest text binds ih =>
    obtain ⟨later, hlater, rfl⟩ := Option.map_eq_some_iff.1 h
    simp [List.filterMap_cons, Token.name?, ih hlater]
  | case5 binds token rest _ ih =>
    obtain ⟨later, hlater, rfl⟩ := Option.map_eq_some_iff.1 h
    simp [List.filterMap_cons, ih hlater]

/-- The tokens of a text with bound texts in their places. -/
def bound? (text : List Char) (binds : List String) : Option (List Token) :=
  (lex text).bind fun tokens => fill? tokens binds

theorem bound?_of_lex {text rest : List Char} {token : Token}
    (h : lex text = (lex rest).map (token :: ·)) (htoken : token ≠ .mark) (binds : List String) :
    bound? text binds = (bound? rest binds).map (token :: ·) := by
  rw [bound?, h, bound?]
  cases lex rest <;> simp [fill?, htoken]

theorem bound?_plain {text : List Char} (h : ∀ c ∈ text, isPlain c = true) (rest : List Char)
    (binds : List String) :
    bound? (text ++ rest) binds = (bound? rest binds).map (text.map .sign ++ ·) := by
  induction text with
  | nil => simp
  | cons c text ih =>
    rw [List.forall_mem_cons] at h
    have hfirst := bound?_of_lex (lex_cons h.1 (text ++ rest)) nofun binds
    rw [List.cons_append, hfirst, ih h.2]
    simp [Function.comp_def]

@[simp] theorem names_signs (text : String) : (signs text).filterMap Token.name? = [] := by
  simp [signs, Token.name?]

@[simp] theorem names_intercalate (sep : String) (parts : List (List Token)) :
    ((signs sep).intercalate parts).filterMap Token.name? =
      parts.flatMap fun part => part.filterMap Token.name? := by
  induction parts with
  | nil => rfl
  | cons first rest ih =>
    cases rest with
    | nil => simp
    | cons second rest =>
      rw [List.intercalate_cons_of_ne_nil (by simp), List.filterMap_append, List.filterMap_append,
        names_signs, List.append_nil, ih, ← List.flatMap_cons]

/-! ## Parts of a text -/

/-- Whether a text can follow one that ends with a quote. -/
def isApart (text : List Char) : Bool := text.head?.all fun c => !isQuote c

/-- Whether a text is not empty and without quotes and question marks. -/
def isWord (text : String) : Bool := !text.toList.isEmpty && text.toList.all isPlain

/-- A part of a text and the texts bound in it are read as these tokens, whatever follows it apart
from it. -/
def Reads (text : String) (binds : List String) (written : List Token) : Prop :=
  ∀ rest later, isApart rest = true →
    bound? (text.toList ++ rest) (binds ++ later) = (bound? rest later).map (written ++ ·)

variable {a b : String} {binds binds' : List String} {written written' : List Token}

theorem reads_empty : Reads "" [] [] := by
  intro rest later _
  simp

theorem reads_name (name : String) : Reads (quoteName name) [] [.name name] := by
  intro rest later hrest
  have hhead : rest.head? ≠ some '"' := by
    intro hquote
    simp [isApart, hquote, isQuote] at hrest
  exact bound?_of_lex (lex_quoteName name hhead) nofun later

theorem reads_mark (text : String) : Reads "?" [text] [.value text] := by
  intro rest later _
  have hlex : lex ('?' :: rest) = (lex rest).map (.mark :: ·) := lex_mark rest
  show bound? ('?' :: rest) (text :: later) = _
  rw [bound?, hlex, bound?]
  cases lex rest <;> simp [fill?]

/-- Plain text may be followed by anything. -/
theorem Reads.word_append (word : String) (hword : isWord word = true) (h : Reads b binds written) :
    Reads (word ++ b) binds (signs word ++ written) := by
  intro rest later hrest
  have hplain : ∀ c ∈ word.toList, isPlain c = true := by
    simp only [isWord, Bool.and_eq_true, List.all_eq_true] at hword
    exact hword.2
  rw [String.toList_append, List.append_assoc, bound?_plain hplain, h rest later hrest]
  simp [signs, Function.comp_def]

theorem reads_backslash : Reads "'\\'" [] [.string "\\"] := by
  intro rest later hrest
  have hhead : rest.head? ≠ some '\'' := by
    intro hquote
    simp [isApart, hquote, isQuote] at hrest
  have hlex : lex ("'\\'".toList ++ rest) = (lex rest).map (.string "\\" :: ·) := by
    have hend : lex ("'\\'".toList ++ rest) = lexFrom (.ending '\'' ['\\']) rest := by
      simp [lex, lexFrom, Position.step, Position.start, isQuote]
    rw [hend, lexFrom_ending _ hhead]
    rfl
  exact bound?_of_lex hlex nofun later

theorem reads_word {word : String} (hword : isWord word = true) : Reads word [] (signs word) := by
  simpa using Reads.word_append word hword reads_empty

/-- Parts are read one after the other, if the second one is apart from the first one. -/
theorem Reads.append (ha : Reads a binds written) (hb : Reads b binds' written')
    (hapart : ∀ rest, isApart rest = true → isApart (b.toList ++ rest) = true) :
    Reads (a ++ b) (binds ++ binds') (written ++ written') := by
  intro rest later hrest
  calc bound? ((a ++ b).toList ++ rest) (binds ++ binds' ++ later)
      = bound? (a.toList ++ (b.toList ++ rest)) (binds ++ (binds' ++ later)) := by simp
    _ = (bound? (b.toList ++ rest) (binds' ++ later)).map (written ++ ·) :=
        ha _ _ (hapart rest hrest)
    _ = (bound? rest later).map (written ++ written' ++ ·) := by
        rw [hb rest later hrest]
        simp [Function.comp_def]

theorem isApart_word {word : String} (hword : isWord word = true) (rest : List Char) :
    isApart (word.toList ++ rest) = true := by
  cases hchars : word.toList with
  | nil => simp [isWord, hchars] at hword
  | cons c chars =>
    simp [isWord, hchars, isPlain] at hword
    simp [isApart, hword]

/-- Plain text is apart from everything. -/
theorem Reads.append_word (word : String) (hword : isWord word = true)
    (ha : Reads a binds written) (hb : Reads b binds' written') :
    Reads (a ++ (word ++ b)) (binds ++ binds') (written ++ (signs word ++ written')) := by
  refine ha.append (hb.word_append word hword) ?_
  intro rest _
  rw [String.toList_append, List.append_assoc]
  exact isApart_word hword _

theorem Reads.append_last (word : String) (hword : isWord word = true)
    (ha : Reads a binds written) :
    Reads (a ++ word) binds (written ++ signs word) := by
  simpa using ha.append_word word hword reads_empty

theorem reads_join {α : Type} (sep : String) (hsep : isWord sep = true) {text : α → String}
    {binds : α → List String} {written : α → List Token} {items : List α}
    (h : ∀ a ∈ items, Reads (text a) (binds a) (written a)) :
    Reads (Text.joinStrings sep (items.map text)) (items.flatMap binds)
      ((signs sep).intercalate (items.map written)) := by
  induction items with
  | nil => exact reads_empty
  | cons first rest ih =>
    rw [List.forall_mem_cons] at h
    cases rest with
    | nil => simpa [Text.joinStrings, Text.join] using h.1
    | cons second rest =>
      have hjoin : Text.joinStrings sep ((first :: second :: rest).map text) =
          text first ++ (sep ++ Text.joinStrings sep ((second :: rest).map text)) := by
        simp [Text.joinStrings, Text.join]
      have hwritten : (signs sep).intercalate ((first :: second :: rest).map written) =
          written first ++
            (signs sep ++ (signs sep).intercalate ((second :: rest).map written)) := by
        rw [List.map_cons, List.intercalate_cons_of_ne_nil (by simp), List.append_assoc]
      rw [hjoin, hwritten]
      exact h.1.append_word sep hsep (ih h.2)

/-- A list of parts in which nothing is bound. -/
theorem reads_join_unbound {α : Type} (sep : String) (hsep : isWord sep = true) {text : α → String}
    {written : α → List Token} (h : ∀ a, Reads (text a) [] (written a)) (items : List α) :
    Reads (Text.joinStrings sep (items.map text)) []
      ((signs sep).intercalate (items.map written)) := by
  have hnone : (items.flatMap fun _ => []) = ([] : List String) := by simp
  have hread := reads_join sep hsep fun a (_ : a ∈ items) => h a
  rwa [hnone] at hread

theorem isPlain_of_isDigit {c : Char} (h : c.isDigit = true) : isPlain c = true := by
  have hdouble : c ≠ '"' := by
    rintro rfl
    cases h
  have hsingle : c ≠ '\'' := by
    rintro rfl
    cases h
  have hmark : c ≠ '?' := by
    rintro rfl
    cases h
  simp [isPlain, isQuote, hdouble, hsingle, hmark]

/-- A number is written without quotes and question marks. -/
theorem all_isPlain_toString (n : Nat) : (toString n).toList.all isPlain = true := by
  rw [List.all_eq_true]
  intro c hc
  rw [Nat.toString_eq_repr, Nat.toList_repr] at hc
  exact isPlain_of_isDigit (Nat.isDigit_of_mem_toDigits (by decide) (by decide) hc)

end Sql

/-! ## Statements -/

open Sql

namespace Condition

/-- The names in a condition. -/
def names : Condition → List String
  | .search columns _ => columns
  | .compare c => [c.column]
  | .oneOf column _ => [column]

/-- A condition with its texts in their places. -/
def written : Condition → List Token
  | .search columns pattern =>
    signs "(" ++ (signs " OR ").intercalate (columns.map fun column =>
      signs "CAST(" ++ .name column :: signs " AS VARCHAR) ILIKE " ++ .value pattern ::
        signs " ESCAPE " ++ [.string "\\"]) ++ signs ")"
  | .compare c => .name c.column :: signs (" " ++ c.op.sql ++ " ") ++ [.value c.value]
  | .oneOf column values =>
    .name column :: signs " IN (" ++
      (signs ", ").intercalate (values.map fun value => [.value value]) ++ signs ")"

theorem reads_sql (c : Condition) : Reads c.sql c.binds c.written := by
  cases c with
  | search columns pattern =>
    have halternative (column : String) :
        Reads ("CAST(" ++ quoteName column ++ " AS VARCHAR) ILIKE ? ESCAPE '\\'") [pattern]
          (signs "CAST(" ++ .name column :: signs " AS VARCHAR) ILIKE " ++ .value pattern ::
            signs " ESCAPE " ++ [.string "\\"]) := by
      have hread := Reads.word_append "CAST(" (by decide)
        ((reads_name column).append_word " AS VARCHAR) ILIKE " (by decide)
          ((reads_mark pattern).append_word " ESCAPE " (by decide) reads_backslash))
      simpa [String.append_assoc] using hread
    have hread := Reads.word_append "(" (by decide)
      ((reads_join " OR " (by decide) fun column (_ : column ∈ columns) =>
        halternative column).append_last ")" (by decide))
    have hbinds : (search columns pattern).binds = columns.flatMap fun _ => [pattern] :=
      List.map_eq_flatMap
    rw [hbinds]
    simpa [sql, written, String.append_assoc] using hread
  | compare c =>
    have hop : isWord (" " ++ c.op.sql ++ " ") = true := by cases c.op <;> decide
    have hread := (reads_name c.column).append_word _ hop (reads_mark c.value)
    simpa [sql, binds, written, String.append_assoc] using hread
  | oneOf column values =>
    have hmarks : placeholders values.length =
        Text.joinStrings ", " (values.map fun _ => "?") := by
      rw [placeholders, List.map_const']
    have hread := (reads_name column).append_word " IN (" (by decide)
      ((reads_join ", " (by decide) fun value (_ : value ∈ values) =>
        reads_mark value).append_last ")" (by decide))
    rw [sql, hmarks]
    simpa [binds, written, String.append_assoc] using hread

theorem names_written (c : Condition) : c.written.filterMap Token.name? = c.names := by
  cases c <;> simp [written, names, List.filterMap_cons, Token.name?, List.flatMap_map]

end Condition

/-- The conditions of a statement with their texts in their places. -/
def whereWritten (conditions : List Condition) : List Token :=
  if conditions.isEmpty then []
  else signs " WHERE " ++ (signs " AND ").intercalate (conditions.map Condition.written)

def SortKey.written (key : SortKey) : List Token :=
  .name key.column :: signs (" " ++ key.direction.sql)

def projectionWritten (columns : List String) : List Token :=
  if columns.isEmpty then signs "*" else (signs ", ").intercalate (columns.map fun c => [.name c])

def Query.written (q : Query) : List Token :=
  signs "SELECT " ++ projectionWritten q.columns ++
    (if q.withTotal then signs (", COUNT(*) OVER () AS " ++ totalColumn) else []) ++
    signs " FROM " ++ .name q.table :: whereWritten q.conditions ++
    signs " ORDER BY " ++ (signs ", ").intercalate (q.order.map SortKey.written) ++
    (match q.page with
      | some page => signs (" LIMIT " ++ toString page.limit ++ " OFFSET " ++ toString page.offset)
      | none => [])

theorem names_whereWritten (conditions : List Condition) :
    (whereWritten conditions).filterMap Token.name? = conditions.flatMap Condition.names := by
  unfold whereWritten
  split
  · next hnone => simp [List.isEmpty_iff.1 hnone]
  · simp [List.flatMap_map, Condition.names_written]

theorem names_projectionWritten (columns : List String) :
    (projectionWritten columns).filterMap Token.name? = columns := by
  unfold projectionWritten
  split
  · next hnone => simp [List.isEmpty_iff.1 hnone]
  · simp [List.flatMap_map]

theorem Query.names_written (q : Query) :
    q.written.filterMap Token.name? =
      q.columns ++ q.table :: q.conditions.flatMap Condition.names ++
        q.order.map SortKey.column := by
  have horder : q.order.flatMap (fun key => key.written.filterMap Token.name?) =
      q.order.map SortKey.column := by
    simp [SortKey.written, ← List.map_eq_flatMap]
  unfold written
  cases q.withTotal <;> cases q.page <;>
    simp [List.flatMap_map, names_projectionWritten, names_whereWritten, horder]

theorem reads_whereSql (conditions : List Condition) :
    Reads (whereSql conditions) (conditions.flatMap Condition.binds) (whereWritten conditions) := by
  cases conditions with
  | nil => exact reads_empty
  | cons first rest =>
    have hread := Reads.word_append " WHERE " (by decide)
      (reads_join " AND " (by decide) fun c (_ : c ∈ first :: rest) => c.reads_sql)
    simpa [whereSql, whereWritten] using hread

theorem SortKey.reads_sql (key : SortKey) : Reads key.sql [] key.written := by
  have hdirection : isWord (" " ++ key.direction.sql) = true := by cases key.direction <;> decide
  have hread := (reads_name key.column).append_last _ hdirection
  simpa [sql, written, String.append_assoc] using hread

theorem reads_projectionSql (columns : List String) :
    Reads (projectionSql columns) [] (projectionWritten columns) := by
  unfold projectionSql projectionWritten
  split
  · exact reads_word (by decide)
  · exact reads_join_unbound ", " (by decide) reads_name columns

/-- A table with the conditions on its rows. -/
theorem reads_rows (table : String) (conditions : List Condition) :
    Reads (quoteName table ++ whereSql conditions) (conditions.flatMap Condition.binds)
      (.name table :: whereWritten conditions) := by
  refine (reads_name table).append (reads_whereSql conditions) ?_
  intro rest hrest
  unfold whereSql
  split
  · exact hrest
  · rw [String.toList_append, List.append_assoc]
    exact isApart_word (by decide) _

/-- The page of a statement with nothing bound in it. -/
theorem isWord_page (page : Page) :
    isWord (" LIMIT " ++ toString page.limit ++ " OFFSET " ++ toString page.offset) = true := by
  have hlimit : " LIMIT ".toList.all isPlain = true := by decide
  have hoffset : " OFFSET ".toList.all isPlain = true := by decide
  simp only [isWord, String.toList_append, List.all_append, hlimit, hoffset, all_isPlain_toString,
    Bool.and_true]
  rfl

/-- A question up to its order. -/
theorem Query.reads_head (q : Query) {last : String} {written : List Token}
    (hlast : Reads last [] written) :
    Reads ("SELECT " ++ projectionSql q.columns ++
        (if q.withTotal then ", COUNT(*) OVER () AS " ++ totalColumn else "") ++ " FROM " ++
        quoteName q.table ++ whereSql q.conditions ++ " ORDER BY " ++ last)
      (q.conditions.flatMap Condition.binds)
      (signs "SELECT " ++ projectionWritten q.columns ++
        (if q.withTotal then signs (", COUNT(*) OVER () AS " ++ totalColumn) else []) ++
        signs " FROM " ++ .name q.table :: whereWritten q.conditions ++ signs " ORDER BY " ++
        written) := by
  have hrows := (reads_rows q.table q.conditions).append_word " ORDER BY " (by decide)
    hlast
  have hselect := Reads.word_append "SELECT " (by decide) (reads_projectionSql q.columns)
  cases q.withTotal with
  | false =>
    have hread := hselect.append_word " FROM " (by decide) hrows
    simpa [String.append_assoc] using hread
  | true =>
    have hread := hselect.append_word (", COUNT(*) OVER () AS " ++ totalColumn) (by decide)
      (hrows.word_append " FROM " (by decide))
    simpa [String.append_assoc] using hread

theorem Query.reads_sql (q : Query) :
    Reads q.sql (q.conditions.flatMap Condition.binds) q.written := by
  have hkeys := reads_join_unbound ", " (by decide) SortKey.reads_sql q.order
  unfold sql written
  cases q.page with
  | none => simpa using q.reads_head hkeys
  | some page =>
    have hread := q.reads_head (hkeys.append_last _ (isWord_page page))
    simpa [String.append_assoc] using hread

namespace Statement

/-- The names in a statement, in the order of its text. -/
def names : Statement → List String
  | .select q => q.columns ++ q.table :: q.conditions.flatMap Condition.names ++
      q.order.map SortKey.column
  | .count table conditions => table :: conditions.flatMap Condition.names
  | .insert table values => table :: values.map Prod.fst
  | .update table values keyColumn _ => table :: values.map Prod.fst ++ [keyColumn]
  | .delete table keyColumn _ => [table, keyColumn]

/-- A statement with its texts in their places. -/
def written : Statement → List Token
  | .select q => q.written
  | .count table conditions =>
    signs "SELECT COUNT(*) AS n FROM " ++ .name table :: whereWritten conditions
  | .insert table values =>
    signs "INSERT INTO " ++ .name table :: signs " (" ++
      (signs ", ").intercalate (values.map fun entry => [.name entry.1]) ++ signs ") VALUES (" ++
      (signs ", ").intercalate (values.map fun entry => [.value entry.2]) ++
      signs ") RETURNING *"
  | .update table values keyColumn key =>
    signs "UPDATE " ++ .name table :: signs " SET " ++
      (signs ", ").intercalate (values.map fun entry =>
        .name entry.1 :: signs " = " ++ [.value entry.2]) ++
      signs " WHERE " ++ .name keyColumn :: signs " = " ++ .value key :: signs " RETURNING *"
  | .delete table keyColumn key =>
    signs "DELETE FROM " ++ .name table :: signs " WHERE " ++ .name keyColumn :: signs " = " ++
      [.value key]

/-- A statement is read with every bound text in its place. -/
theorem reads_sql (st : Statement) : Reads st.sql st.binds st.written := by
  -- unfolded before the cases: the equations of `sql` would be found by evaluating the texts
  unfold sql binds written
  cases st with
  | select q => exact q.reads_sql
  | count table conditions =>
    have hread := Reads.word_append "SELECT COUNT(*) AS n FROM " (by decide)
      (reads_rows table conditions)
    simpa [String.append_assoc] using hread
  | insert table values =>
    have hnames := reads_join_unbound ", " (by decide)
      (fun entry : String × String => reads_name entry.1) values
    have hvalues := reads_join ", " (by decide)
      fun entry (_ : entry ∈ values) => reads_mark entry.2
    have hread := Reads.word_append "INSERT INTO " (by decide)
      ((reads_name table).append_word " (" (by decide)
        (hnames.append_word ") VALUES (" (by decide)
          (hvalues.append_last ") RETURNING *" (by decide))))
    have hmarks : placeholders values.length = Text.joinStrings ", " (values.map fun _ => "?") := by
      rw [placeholders, List.map_const']
    have hbinds : values.map Prod.snd = values.flatMap fun entry => [entry.2] :=
      List.map_eq_flatMap
    rw [← hbinds] at hread
    simpa [hmarks, String.append_assoc] using hread
  | update table values keyColumn key =>
    have hassign (entry : String × String) : Reads (quoteName entry.1 ++ " = ?") [entry.2]
        (.name entry.1 :: signs " = " ++ [.value entry.2]) := by
      have hread := (reads_name entry.1).append_word " = " (by decide)
        (reads_mark entry.2)
      simpa [String.append_assoc] using hread
    have hvalues := reads_join ", " (by decide) fun entry (_ : entry ∈ values) =>
      hassign entry
    have hkey := (reads_name keyColumn).append_word " = " (by decide)
      ((reads_mark key).append_last " RETURNING *" (by decide))
    have hread := Reads.word_append "UPDATE " (by decide)
      ((reads_name table).append_word " SET " (by decide)
        (hvalues.append_word " WHERE " (by decide) hkey))
    have hbinds : values.map Prod.snd = values.flatMap fun entry => [entry.2] :=
      List.map_eq_flatMap
    rw [← hbinds] at hread
    simpa [String.append_assoc] using hread
  | delete table keyColumn key =>
    have hread := Reads.word_append "DELETE FROM " (by decide)
      ((reads_name table).append_word " WHERE " (by decide)
        ((reads_name keyColumn).append_word " = " (by decide) (reads_mark key)))
    simpa [String.append_assoc] using hread

theorem names_written (st : Statement) : st.written.filterMap Token.name? = st.names := by
  unfold written names
  cases st with
  | select q => simp [q.names_written]
  | count table conditions => simp [names_whereWritten]
  | insert table values =>
    have hnone : values.flatMap (fun _ => ([] : List String)) = [] := by simp
    simp [List.filterMap_cons, List.flatMap_map, hnone, ← List.map_eq_flatMap]
  | update table values keyColumn key =>
    simp [List.filterMap_cons, List.flatMap_map, ← List.map_eq_flatMap]
  | delete table keyColumn key => simp [List.filterMap_cons]

end Statement

/-! ## Places -/

namespace Sql

/-- A text has these names between double quotes and outside quotes one question mark for each bound
text; with the texts bound one after the other it is what was written. -/
def InPlace (text : String) (binds names : List String) (written : List Token) : Prop :=
  ∃ tokens, lex text.toList = some tokens ∧ tokens.filterMap Token.name? = names ∧
    tokens.count .mark = binds.length ∧ fill? tokens binds = some written

theorem Reads.inPlace {text : String} {binds : List String} {written : List Token}
    (h : Reads text binds written) :
    InPlace text binds (written.filterMap Token.name?) written := by
  have hbound : bound? text.toList binds = some written := by
    simpa [bound?, lex, lexFrom, fill?] using h [] [] rfl
  obtain ⟨tokens, htokens, hfill⟩ := Option.bind_eq_some_iff.1 hbound
  exact ⟨tokens, htokens, names_of_fill? hfill, count_of_fill? hfill, hfill⟩

/-- However conditions are put together, and whatever statement is made of whatever names: outside
quotes the text has as many question marks as texts are bound, each of these takes the question mark
in its own condition, list of values or assignment, and every quoted name is read back as it was. -/
theorem binds_in_place :
    (∀ conditions : List Condition,
      InPlace (whereSql conditions) (conditions.flatMap Condition.binds)
        (conditions.flatMap Condition.names) (whereWritten conditions)) ∧
    ∀ st : Statement, InPlace st.sql st.binds st.names st.written := by
  refine ⟨fun conditions => ?_, fun st => ?_⟩
  · have hplace := (reads_whereSql conditions).inPlace
    rwa [names_whereWritten] at hplace
  · have hplace := st.reads_sql.inPlace
    rwa [st.names_written] at hplace

/-- A name with quotes and a question mark, and a question mark between single quotes. -/
example :
    lex "\"wh\"\"o?\" = ? OR '?'".toList =
      some [.name "wh\"o?", .sign ' ', .sign '=', .sign ' ', .mark, .sign ' ', .sign 'O', .sign 'R',
        .sign ' ', .string "?"] := by
  decide

end Sql

end ParamQuery
