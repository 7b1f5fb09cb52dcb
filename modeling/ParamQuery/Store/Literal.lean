import ParamQuery.Error
import ParamQuery.Store.Cast
import ParamQuery.Store.Datum

/-!
# Typed literals

Values written out with their type, and the stored values that they stand for.

## Main definitions

* `Literal` — a value as it is written.
* `Literal.datum` — the value it stands for inside another one, or why there is none.
* `Literal.columnJson`, `Literal.row` — the same for the values of a row.
-/

namespace ParamQuery

/-- A value as it is written. -/
inductive Literal where
  | null
  | boolean (text : String)
  | integer (type : IntegerType) (text : String)
  | float (format : BinaryFormat) (text : String)
  | decimal (width scale : Nat) (text : String)
  | text (s : String)
  | blob (bytes : List UInt8)
  | date (days : Int)
  | timestamp (unit : TimeUnit) (count : Int)
  | time (micros : Int)
  | interval (months days micros : Int)
  | label (labels : List String) (name : String)
  | list (items : List Literal)
  | array (items : List Literal)
  | struct (fields : List (String × Literal))
  | map (entries : List (Literal × Literal))
  | union (member : Literal)
  deriving Repr, Inhabited

namespace Literal

/-- A value, or the fault of a literal that stands for none. -/
def orInvalid {α : Type} : Option α → Except EngineFault α
  | some a => .ok a
  | none => .error .invalidLiteral

/-- The product of a written number with a factor. Numbers of 32 bits are multiplied in 32 bits, and
larger ones in 64; a product that does not fit is a fault. -/
def scaled? (count factor : Int) : Option Int :=
  let type := if IntegerType.int32.holds count then IntegerType.int32 else IntegerType.int64
  if type.holds (count * factor) then some (count * factor) else none

/-- A count of a unit of time that a time stamp can hold. Seconds and milliseconds are written as
microseconds first. The greatest count and its negative stand for infinity and cannot be written. -/
def timestamp? (unit : TimeUnit) (count : Int) : Option Datum := do
  let written ← match unit with
    | .second => scaled? count 1000000
    | .millisecond => scaled? count 1000
    | .microsecond | .nanosecond => some count
  if IntegerType.int64.holds written && written.natAbs != endOfTime.toNat then
    some (.timestamp unit (Int64.ofInt count))
  else none

/-- A number of days that a date can hold: 32 bits, without the two that stand for infinity. -/
def date? (days : Int) : Option Datum :=
  if days.natAbs < endOfDays.toNat then some (.date days) else none

/-- A time of day, up to the end of the day. -/
def time? (micros : Int) : Option Datum :=
  if 0 ≤ micros ∧ micros ≤ microsPerDay then some (.time micros) else none

/-- Months, days and microseconds that an interval can hold. -/
def interval? (months days micros : Int) : Option Datum :=
  if IntegerType.int32.holds months ∧ IntegerType.int32.holds days ∧
      IntegerType.int64.holds micros then
    some (.interval months days (Int64.ofInt micros))
  else none

/-- The value of a whole number, by the width of its type. -/
def integerDatum (type : IntegerType) (n : Int) : Datum :=
  if type.bits ≤ 64 then .integer n
  else if type.signed then .hugeint n
  else .uhugeint n.toNat

/-- The value of a decimal type: without a fraction it is handed over as a whole number. -/
def decimalDatum (scale : Nat) (unscaled : Int) : Datum :=
  if hscale : 0 < scale then .decimal unscaled scale hscale else .hugeint unscaled

/-- Whether a name occurs twice, in any ASCII case. -/
def hasRepeatedName : List String → Bool
  | [] => false
  | name :: rest =>
    rest.any (fun other => Text.asciiLower other == Text.asciiLower name) || hasRepeatedName rest

/-- Whether there are names, none of them empty. -/
def areNames (names : List String) : Bool := !names.isEmpty && names.all fun name => !name.isEmpty

/-- Whether a list of labels holds each label once. -/
def isLabelList : List String → Bool
  | [] => true
  | first :: rest => !rest.contains first && isLabelList rest

/-- Whether a key is null or occurs twice. -/
def hasBadKey : List Datum → Bool
  | [] => false
  | key :: rest => key.same .null || rest.any key.same || hasBadKey rest

mutual
/-- The value that a literal stands for, as it is handed over inside another value. -/
def datum : Literal → Except EngineFault Datum
  | .null => .ok .null
  | .boolean word => orInvalid ((Cast.boolean? word.toList).map .boolean)
  | .integer type digits =>
    orInvalid ((Cast.integer? type digits.toList).map (integerDatum type))
  | .float format digits => orInvalid ((Cast.float? format digits.toList).map .float)
  | .decimal width scale digits =>
    orInvalid ((Cast.decimal? width scale digits.toList).map (decimalDatum scale))
  | .text s => .ok (.text s)
  | .blob bytes => .ok (.blob bytes)
  | .date days => orInvalid (date? days)
  | .timestamp unit count => orInvalid (timestamp? unit count)
  | .time micros => orInvalid (time? micros)
  | .interval months days micros => orInvalid (interval? months days micros)
  | .label labels name =>
    if isLabelList labels && labels.contains name then .ok (.label name)
    else .error .invalidLiteral
  | .list items => (data items).map .list
  | .array items =>
    if items.isEmpty then .error .invalidLiteral else (data items).map .array
  | .struct fields =>
    let names := fields.map Prod.fst
    if areNames names && !hasRepeatedName names then (fieldData fields).map .struct
    else .error .invalidLiteral
  | .map entries => do
    let entries ← entryData entries
    if hasBadKey (entries.map Prod.fst) then throw .invalidLiteral
    pure (.map entries)
  | .union member => (datum member).map .union

def data : List Literal → Except EngineFault (List Datum)
  | [] => .ok []
  | item :: rest => do
    let item ← datum item
    let rest ← data rest
    pure (item :: rest)

def fieldData : List (String × Literal) → Except EngineFault (List (String × Datum))
  | [] => .ok []
  | (name, value) :: rest => do
    let value ← datum value
    let rest ← fieldData rest
    pure ((name, value) :: rest)

def entryData : List (Literal × Literal) → Except EngineFault (List (Datum × Datum))
  | [] => .ok []
  | (key, value) :: rest => do
    let key ← datum key
    let value ← datum value
    let rest ← entryData rest
    pure ((key, value) :: rest)
end

/-- The JSON form of the value that a literal stands for as a column of a row. There a number of a
decimal type is handed over as one, also without a fraction. -/
def columnJson : Literal → Except EngineFault Json
  | .decimal width scale digits =>
    orInvalid ((Cast.decimal? width scale digits.toList).map fun n => Datum.decimalJson n scale)
  | value => (datum value).map Datum.toJson

/-- The row of written values with names. There must be values, and no name may be
empty. -/
def row (columns : List (String × Literal)) : Except Error Entity :=
  let members : Except EngineFault (List (String × Json)) :=
    if areNames (columns.map Prod.fst) then
      columns.mapM fun column => (columnJson column.2).map fun value => (column.1, value)
    else .error .invalidLiteral
  (members.map OrderedMap.ofList).mapError .engine

end Literal

end ParamQuery
