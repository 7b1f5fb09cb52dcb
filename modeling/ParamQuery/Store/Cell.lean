import ParamQuery.Error
import ParamQuery.Store.Cast
import ParamQuery.Store.Datum

/-!
# Cells

The values in the columns of tables: how a text is read as one, how they are ordered, and the text
that searching looks in.

## Main definitions

* `ColumnType`, `Cell` — the types of columns and their values.
* `ColumnType.read?` — the value that a text stands for in a column.
* `Cell.compare`, `Cell.le` — the order of values, null after all others.
* `Cell.searchText?` — the text of a value.
-/

namespace ParamQuery

open Text

inductive ColumnType where
  | integer
  | bigint
  | varchar
  | double
  | boolean
  | date
  | timestamp
  deriving DecidableEq, Repr

/-- The value of a column in a row. -/
inductive Cell where
  | null
  | integer (n : Int)
  | text (s : String)
  | double (x : Binary64)
  | boolean (b : Bool)
  /-- Days since 1970-01-01. -/
  | date (days : Int)
  /-- Microseconds since the start of 1970. -/
  | timestamp (micros : Int)
  deriving DecidableEq, Repr, Inhabited

/-- The value that a text stands for in a column of this type. -/
def ColumnType.read? (type : ColumnType) (text : String) : Option Cell :=
  match type with
  | .integer => (Cast.integer? .int32 text.toList).map .integer
  | .bigint => (Cast.integer? .int64 text.toList).map .integer
  | .varchar => some (.text text)
  | .double => (Cast.float? .double text.toList).map .double
  | .boolean => (Cast.boolean? text.toList).map .boolean
  | .date => (Cast.date? text.toList).map .date
  | .timestamp => (Cast.timestamp? text.toList).map .timestamp

/-- The value that a text stands for in a column of this type, or the fault of a text that stands
for none. -/
def ColumnType.read (type : ColumnType) (text : String) : Except EngineFault Cell :=
  match type.read? text with
  | some cell => .ok cell
  | none => .error (.unreadableText text)

/-- The first difference between two texts decides, by code point; a shorter text comes first. -/
def compareText : List Char → List Char → Ordering
  | [], [] => .eq
  | [], _ :: _ => .lt
  | _ :: _, [] => .gt
  | a :: as, b :: bs =>
    if a.toNat < b.toNat then .lt else if b.toNat < a.toNat then .gt else compareText as bs

def compareInt (a b : Int) : Ordering :=
  if a < b then .lt else if b < a then .gt else .eq

namespace Cell

def isNull : Cell → Bool
  | .null => true
  | _ => false

/-- Where values of different types stand to each other; null comes last. -/
def typeRank : Cell → Int
  | .integer _ => 0
  | .text _ => 1
  | .double _ => 2
  | .boolean _ => 3
  | .date _ => 4
  | .timestamp _ => 5
  | .null => 6

/-- The order of values of one type: numbers by size, texts by code point, false before true. -/
def compare : Cell → Cell → Ordering
  | .integer a, .integer b => compareInt a b
  | .text a, .text b => compareText a.toList b.toList
  | .double a, .double b => compareInt a.rank b.rank
  | .boolean a, .boolean b => compareInt a.toNat b.toNat
  | .date a, .date b => compareInt a b
  | .timestamp a, .timestamp b => compareInt a b
  | a, b => compareInt a.typeRank b.typeRank

/-- Whether a value satisfies a comparison with another one; null satisfies none. -/
def satisfies (op : CompareOp) (value bound : Cell) : Bool :=
  !value.isNull && !bound.isNull && op.holds (compare value bound)

/-- The JSON form of a cell is that of its value. -/
def datum : Cell → Datum
  | .null => .null
  | .integer n => .integer n
  | .text s => .text s
  | .double x => .float x
  | .boolean b => .boolean b
  | .date days => .date days
  | .timestamp micros => .timestamp .microsecond (Int64.ofInt micros)

/-- Powers of ten from -4 to 15 are written out, the others have at least two digits. -/
def doubleLayout : FloatLayout := ⟨-4, 15, 2⟩

/-- A number of the binary format, by name if it is not finite. -/
def doubleText (x : Binary64) : List Char :=
  if x.isFinite then doubleLayout.render x
  else if x.isNaN then ['n', 'a', 'n']
  else if x.negative then ['-', 'i', 'n', 'f']
  else ['i', 'n', 'f']

/-- The text of an end of time. -/
def endText (count : Int) : List Char :=
  (if count < 0 then ['-'] else []) ++ ['i', 'n', 'f', 'i', 'n', 'i', 't', 'y']

/-- A date; years before the first are counted back from it. -/
def dateText (days : Int) : List Char :=
  let date := Date.ofEpochDays days
  let year := if date.year ≤ 0 then 1 - date.year else date.year
  padded 4 year.toNat ++ '-' :: padded 2 date.month ++ '-' :: padded 2 date.day ++
    (if date.year ≤ 0 then [' ', '(', 'B', 'C', ')'] else [])

/-- A date and a time of day with a space between them; zeros at the end of a fraction are left
out. -/
def timestampText (micros : Int) : List Char :=
  let ofDay := (micros % microsPerDay).toNat
  let part := ofDay % 1000000
  let fraction := ((padded 6 part).reverse.dropWhile (· == '0')).reverse
  dateText (micros / microsPerDay) ++ ' ' :: clock ofDay ++
    (if part = 0 then [] else '.' :: fraction)

/-- The text of a value, which searching looks in; null has none. -/
def searchText? : Cell → Option (List Char)
  | .null => none
  | .integer n => some (toString n).toList
  | .text s => some s.toList
  | .double x => some (doubleText x)
  | .boolean true => some ['t', 'r', 'u', 'e']
  | .boolean false => some ['f', 'a', 'l', 's', 'e']
  | .date days => some (if days.natAbs = endOfDays.toNat then endText days else dateText days)
  | .timestamp micros =>
    some (if micros.natAbs = endOfTime.toNat then endText micros else timestampText micros)

/-- Whether a value may stand before another one in an order; null comes last either way. -/
def le (descending : Bool) (a b : Cell) : Bool :=
  if b.isNull then true
  else if a.isNull then false
  else if descending then compare a b != .lt
  else compare a b != .gt

end Cell

end ParamQuery
