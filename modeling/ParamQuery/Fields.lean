import ParamQuery.Json
import ParamQuery.Name
import ParamQuery.Text.Blank

/-!
# Field selections

The columns and relations that a request asks for, written as a list such as
`id,name,orders.total`.

## Main definitions

* `FieldToken` — one entry of the list.
* `FieldSelection` — columns, and relations with their columns.
* `FieldSelection.parse` — the selection that a text asks for.
* `canonicalFields` — the text with every identifier in canonical form.
-/

namespace ParamQuery

open Text

/-- One entry of a list of fields: a column, or a column of a relation, cut at the first point. -/
inductive FieldToken where
  | column (name : String)
  | subfield (relation field : String)
  deriving DecidableEq, Repr

namespace FieldToken

def ofChars (token : List Char) : FieldToken :=
  match splitFirst '.' token with
  | some (relation, field) => .subfield (String.ofList relation) (String.ofList field)
  | none => .column (String.ofList token)

/-- The entry as text, every identifier in canonical form. -/
def canonicalText : FieldToken → String
  | .column name => canonical name
  | .subfield relation field => canonical relation ++ "." ++ canonical field

end FieldToken

/-- The entries between the commas of a text, without the white space around them and without
entries that are blank. -/
def fieldTokens (text : String) : List FieldToken :=
  (((splitOn ',' text.toList).map trim).filter fun token => !token.isEmpty).map FieldToken.ofChars

/-- A list of fields with every identifier in canonical form and nothing around the commas. -/
def canonicalFields (text : String) : String :=
  joinStrings "," ((fieldTokens text).map FieldToken.canonicalText)

/-- Columns to return, and relations to load with the columns wanted of them. No column at all of a
relation means all its columns. -/
structure FieldSelection where
  select : List String := []
  relations : OrderedMap (List String) := ∅
  deriving DecidableEq, Repr, Inhabited

namespace FieldSelection

/-- Adds an item at the end of a list that does not hold it. -/
def addNew (items : List String) (item : String) : List String :=
  if items.contains item then items else items ++ [item]

theorem mem_addNew {items : List String} {item x : String} :
    x ∈ addNew items item ↔ x ∈ items ∨ x = item := by
  unfold addNew
  split
  · next h => exact ⟨.inl, fun h' => h'.elim id fun e => e ▸ by simpa using h⟩
  · simp

theorem nodup_addNew {items : List String} (item : String) (h : items.Nodup) :
    (addNew items item).Nodup := by
  unfold addNew
  split
  · exact h
  · next hi =>
    refine List.nodup_append.2 ⟨h, by simp, fun a ha b hb e => hi ?_⟩
    simpa [← e, ← List.mem_singleton.1 hb] using ha

/-- Adds a column. -/
def addColumn (s : FieldSelection) (column : String) : FieldSelection :=
  { s with select := addNew s.select column }

/-- Adds a relation, as a whole unless columns of it are there. -/
def addRelation (s : FieldSelection) (relation : String) : FieldSelection :=
  { s with relations := s.relations.update relation [] id }

/-- Adds a column of a relation; an empty name adds the relation alone. -/
def addSubfield (s : FieldSelection) (relation field : String) : FieldSelection :=
  { s with
    relations := s.relations.update relation [] fun fields =>
      if field.isEmpty then fields else addNew fields field }

def addToken (s : FieldSelection) : FieldToken → FieldSelection
  | .column name => s.addColumn name
  | .subfield relation field => s.addSubfield relation field

/-- The selection that a text asks for. -/
def parse (text : String) : FieldSelection :=
  (fieldTokens text).foldl addToken {}

/-- Whether nothing is selected. -/
def isEmpty (s : FieldSelection) : Bool := s.select.isEmpty && s.relations.isEmpty

/-- The names that a written row shows: the columns, then the relations. -/
def visibleKeys (s : FieldSelection) : List String := s.select ++ s.relations.keys

def toJson (s : FieldSelection) : Json :=
  .object [
    ("select", .strings s.select),
    ("relations", .object (s.relations.map Json.strings).entries)]

example : (parse "id, orders.total,orders.,id").visibleKeys = ["id", "orders"] := by decide

end FieldSelection

end ParamQuery
