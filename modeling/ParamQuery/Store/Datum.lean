import ParamQuery.Calendar
import ParamQuery.Json
import ParamQuery.Text.Base64

/-!
# Stored values

The values that tables hold, with lists, structures and maps of values inside each other, as the
engine hands them over, and their JSON form.

## Main definitions

* `Datum` — the values.
* `TimeUnit.toMicros` — counts of a unit of time as counts of microseconds.
* `Datum.toJson` — the JSON form.
-/

namespace ParamQuery

/-- What one step of a time stamp is. -/
inductive TimeUnit where
  | second
  | millisecond
  | microsecond
  | nanosecond
  deriving DecidableEq, Repr

/-- A count of a unit as a count of microseconds, in 64 bits; a part of a microsecond is cut off
toward zero. -/
def TimeUnit.toMicros : TimeUnit → Int64 → Int64
  | .second, count => count * 1000000
  | .millisecond, count => count * 1000
  | .microsecond, count => count
  | .nanosecond, count => count / 1000

/-- A stored value. -/
inductive Datum where
  | null
  | boolean (b : Bool)
  /-- A whole number of at most 64 bits, with or without a sign. -/
  | integer (n : Int)
  /-- A whole number of 128 bits with a sign. A whole number of a decimal type is handed over as one
  too when it stands inside another value. -/
  | hugeint (n : Int)
  /-- A whole number of 128 bits without a sign. -/
  | uhugeint (n : Nat)
  /-- A number of the 64-bit binary format, or one of the 32-bit format widened to it. -/
  | float (x : Binary64)
  /-- The number `unscaled / 10 ^ scale`, of a decimal type with a fraction. -/
  | decimal (unscaled : Int) (scale : Nat) (hscale : 0 < scale)
  | text (s : String)
  | blob (bytes : List UInt8)
  /-- Days since 1970-01-01. -/
  | date (days : Int)
  | timestamp (unit : TimeUnit) (count : Int64)
  /-- Microseconds since midnight. -/
  | time (micros : Int)
  | interval (months days : Int) (micros : Int64)
  | label (name : String)
  | list (items : List Datum)
  | array (items : List Datum)
  | struct (fields : List (String × Datum))
  | map (entries : List (Datum × Datum))
  | union (member : Datum)
  deriving Repr, Inhabited

namespace Datum

/-- A number of 128 bits is a number if 64 bits with a sign hold it, and its digits otherwise. -/
def hugeJson (n : Int) : Json :=
  if IntegerType.int64.holds n then .int n else .string (toString n)

/-- The 64-bit binary number that is nearest to `unscaled / 10 ^ scale`. -/
def decimalJson (unscaled : Int) (scale : Nat) : Json :=
  .ofBinary64 (.ofRatio (unscaled < 0) unscaled.natAbs (Nat.pow 10 scale))

/-- The instant in universal time, or null where it has no text. -/
def timestampJson (unit : TimeUnit) (count : Int64) : Json :=
  .ofOption .text (isoInstant? (unit.toMicros count).toInt)

/-- The time of day, or null at the end of the day. -/
def timeJson (micros : Int) : Json :=
  if 0 ≤ micros ∧ micros < microsPerDay then .text (isoClock micros.toNat) else .null

/-- Months, days and nanoseconds. -/
def intervalJson (months days : Int) (micros : Int64) : Json :=
  .string (toString months ++ " months " ++ toString days ++ " days " ++
    toString (micros * 1000).toInt ++ " ns")

/-- The name of an object's member for the key of a map. -/
def memberName (key : Json) : String := key.keyText?.getD "null"

mutual
/-- The JSON form of a value. -/
def toJson : Datum → Json
  | .null => .null
  | .boolean b => .bool b
  | .integer n => .int n
  | .hugeint n => hugeJson n
  | .uhugeint n => .string ("UHugeInt(" ++ toString n ++ ")")
  | .float x => .ofBinary64 x
  | .decimal unscaled scale _ => decimalJson unscaled scale
  | .text s => .string s
  | .blob bytes => .text (Text.base64 bytes)
  | .date days => .ofOption .text (isoDay? days)
  | .timestamp unit count => timestampJson unit count
  | .time micros => timeJson micros
  | .interval months days micros => intervalJson months days micros
  | .label name => .string name
  | .list items => .array (itemsToJson items)
  | .array items => .array (itemsToJson items)
  | .struct fields => .ofMembers (fieldsToJson fields)
  | .map entries => .ofMembers (entriesToJson entries)
  | .union member => toJson member

def itemsToJson : List Datum → List Json
  | [] => []
  | item :: rest => toJson item :: itemsToJson rest

def fieldsToJson : List (String × Datum) → List (String × Json)
  | [] => []
  | (name, value) :: rest => (name, toJson value) :: fieldsToJson rest

def entriesToJson : List (Datum × Datum) → List (String × Json)
  | [] => []
  | (key, value) :: rest => (memberName (toJson key), toJson value) :: entriesToJson rest
end

mutual
/-- Whether two values are built alike. -/
def same : Datum → Datum → Bool
  | .null, .null => true
  | .boolean a, .boolean b => a == b
  | .integer a, .integer b => a == b
  | .hugeint a, .hugeint b => a == b
  | .uhugeint a, .uhugeint b => a == b
  | .float a, .float b => a.rank == b.rank
  | .decimal a s _, .decimal b t _ => a == b && s == t
  | .text a, .text b => a == b
  | .blob a, .blob b => a == b
  | .date a, .date b => a == b
  | .timestamp u a, .timestamp v b => u == v && a == b
  | .time a, .time b => a == b
  | .interval a b c, .interval d e f => a == d && b == e && c == f
  | .label a, .label b => a == b
  | .list a, .list b => sameItems a b
  | .array a, .array b => sameItems a b
  | .struct a, .struct b => sameFields a b
  | .map a, .map b => sameEntries a b
  | .union a, .union b => same a b
  | _, _ => false

def sameItems : List Datum → List Datum → Bool
  | [], [] => true
  | a :: as, b :: bs => same a b && sameItems as bs
  | _, _ => false

def sameFields : List (String × Datum) → List (String × Datum) → Bool
  | [], [] => true
  | (k, a) :: as, (l, b) :: bs => k == l && same a b && sameFields as bs
  | _, _ => false

def sameEntries : List (Datum × Datum) → List (Datum × Datum) → Bool
  | [], [] => true
  | (k, a) :: as, (l, b) :: bs => same k l && same a b && sameEntries as bs
  | _, _ => false
end

example : (map [(.list [.integer 1, .null], .text "x")]).toJson =
    .object [("[1,null]", .string "x")] := by decide

end Datum

/-- A row as an object: a repeated column keeps its first place and takes its last value. -/
abbrev Entity := OrderedMap Json

/-- A row of a result: names of columns and values. -/
abbrev Record := List (String × Datum)

/-- The object of a row. -/
def Record.entity (record : Record) : Entity :=
  .ofList (Datum.fieldsToJson record)

end ParamQuery
