import ParamQuery.Calendar
import ParamQuery.Number.Binary64
import ParamQuery.Text.Split

/-!
# Reading texts as values

How the tables read a text where a value of some type is expected: more freely than the value rules
of requests, with white space, fractions and powers of ten in whole numbers and several ways to
write dates.

## Main definitions

* `Cast.integer?`, `Cast.decimal?`, `Cast.float?`, `Cast.boolean?`, `Cast.date?`, `Cast.timestamp?`
-/

namespace ParamQuery.Cast

open Text

/-- ASCII white space. -/
def isSpace (c : Char) : Bool := c == ' ' || (9 ≤ c.toNat && c.toNat ≤ 13)

def skipSpace (text : List Char) : List Char := text.dropWhile isSpace

/-- Text without the ASCII white space at its two ends. -/
def strip (text : List Char) : List Char :=
  (skipSpace (skipSpace text).reverse).reverse

/-- Takes out the underscores that stand between two digits; `inside` says that a digit comes
before. -/
def ungroup : Bool → List Char → List Char
  | _, [] => []
  | inside, '_' :: c :: rest =>
    if inside && c.isDigit then c :: ungroup true rest else '_' :: ungroup false (c :: rest)
  | _, c :: rest => c :: ungroup c.isDigit rest

/-- The value of a digit of base sixteen. -/
def hexValue? (c : Char) : Option Nat :=
  let c := c.toLower
  if c.isDigit then some (c.toNat - 48)
  else if 'a' ≤ c ∧ c ≤ 'f' then some (c.toNat - 87)
  else none

/-- Digits of a base with single underscores between them. -/
def digitsOf? (base : Nat) (digits : List Char) : Option Int :=
  let groups := splitOn '_' digits
  if groups.any List.isEmpty then none
  else
    (groups.flatten.foldlM (fun (n : Nat) c => do
      let d ← hexValue? c
      if d < base then some (base * n + d) else none) 0).map Int.ofNat

/-- A whole number of a type. It may be written with a fraction and a power of ten and is
then rounded, a half away from zero, or in base sixteen or two. -/
def integer? (type : IntegerType) (text : List Char) : Option Int :=
  let value : Option Int := match skipSpace text with
    | '0' :: 'x' :: digits | '0' :: 'X' :: digits => digitsOf? 16 digits
    | '0' :: 'b' :: digits | '0' :: 'B' :: digits => digitsOf? 2 digits
    | rest => (Decimal.read? (ungroup false (strip rest))).bind (Decimal.toUnits? 40 0)
  value.filter type.holds

/-- A decimal number in units of `10 ^ -scale`, of at most `width` digits. -/
def decimal? (width scale : Nat) (text : List Char) : Option Int :=
  (Decimal.read? (ungroup false (strip text))).bind (Decimal.toUnits? width scale)

/-- A number of a binary format: an infinity or a NaN by name, or a decimal number in its range. -/
def float? (format : BinaryFormat) (text : List Char) : Option Binary64 :=
  let rest := ungroup false (strip text)
  (Binary64.read? format rest).filter fun x => x.isFinite || (Decimal.read? rest).isNone

/-- A truth value, as a word, its first letter or a digit, in any ASCII case. -/
def boolean? (text : List Char) : Option Bool :=
  let word := String.ofList (text.map Char.toLower)
  if ["true", "t", "yes", "y", "1"].contains word then some true
  else if ["false", "f", "no", "n", "0"].contains word then some false
  else none

/-- One or two digits. -/
def shortNumber? : List Char → Option (Nat × List Char)
  | a :: b :: rest =>
    if a.isDigit then
      if b.isDigit then some (digitsValue 0 [a, b], rest) else some (digitsValue 0 [a], b :: rest)
    else none
  | [a] => if a.isDigit then some (digitsValue 0 [a], []) else none
  | [] => none

/-- Whether a character may separate year, month and day. -/
def isDateSeparator (c : Char) : Bool := c == '-' || c == '/' || c == '\\' || c == ' '

/-- What follows a word, in any ASCII case, at the start of a text. -/
def dropWord? (word text : List Char) : Option (List Char) :=
  if (text.take word.length).map Char.toLower = word then some (text.drop word.length) else none

/-- A minus sign, if one comes first, and what follows. -/
def splitMinus : List Char → Bool × List Char
  | '-' :: rest => (true, rest)
  | text => (false, text)

/-- A day that has a name of its own: the end of time, with a minus sign its beginning, and the day
that the count starts from. -/
def namedDay? (text : List Char) : Option Int :=
  let (negative, text) := splitMinus (skipSpace text)
  let named : Option (Int × List Char) :=
    match dropWord? ['i', 'n', 'f', 'i', 'n', 'i', 't', 'y'] text with
    | some rest => some (if negative then -endOfDays else endOfDays, rest)
    | none => (dropWord? ['e', 'p', 'o', 'c', 'h'] text).map fun rest => (0, rest)
  match named with
  | some (days, rest) => if (skipSpace rest).isEmpty then some days else none
  | none => none

/-- Whether a text goes on with the mark of years that are counted back from the first one, and what
follows. -/
def splitEra : List Char → Bool × List Char
  | space :: '(' :: b :: c :: ')' :: rest =>
    if isSpace space && b.toLower == 'b' && c.toLower == 'c' then (true, rest)
    else (false, space :: '(' :: b :: c :: ')' :: rest)
  | text => (false, text)

/-- The year of a number with a minus sign or with the mark for years before the first; both
together are refused, and so is a year 0 that is marked. -/
def eraYear? (negative isBefore : Bool) (year : Nat) : Option Int :=
  if isBefore then (if negative || year == 0 then none else some (1 - year))
  else some (if negative then -(year : Int) else year)

/-- A date: year, month and day with one kind of separator, and what follows, which must not start
with a digit. -/
def splitDate? (text : List Char) : Option (Date × List Char) := do
  let (negative, rest) := splitMinus (skipSpace text)
  let year ← natural? (rest.takeWhile Char.isDigit)
  match rest.dropWhile Char.isDigit with
  | separator :: rest =>
    if isDateSeparator separator then
      let (month, rest) ← shortNumber? rest
      match rest with
      | next :: rest =>
        let (day, rest) ← shortNumber? rest
        let (isBefore, rest) := splitEra rest
        let year ← eraYear? negative isBefore year
        let date : Date := ⟨year, month, day⟩
        if next = separator ∧ date.isValid = true ∧ (rest.head?.all fun c => !c.isDigit) = true ∧
            date.toEpochDays.natAbs < endOfDays.toNat then
          some (date, rest)
        else none
      | [] => none
    else none
  | [] => none

/-- A date as days since 1970-01-01; what follows it is ignored. -/
def date? (text : List Char) : Option Int :=
  match namedDay? text with
  | some days => some days
  | none => (splitDate? text).map fun (date, _) => date.toEpochDays

/-- The microseconds of the digits of a fraction of a second; further digits are cut off. -/
def fractionMicros (digits : List Char) : Nat :=
  let six := (digits ++ List.replicate 6 '0').take 6
  digitsValue 0 six

/-- A time of day with optional seconds and an optional fraction of them, in microseconds, up to the
end of the day. -/
def splitTime? (text : List Char) : Option (Nat × List Char) := do
  let text := skipSpace text
  let hour ← natural? (text.takeWhile Char.isDigit)
  match text.dropWhile Char.isDigit with
  | ':' :: rest =>
    let (minute, rest) ← shortNumber? rest
    let (second, rest) ← match rest with
      | ':' :: rest => shortNumber? rest
      | rest => some (0, rest)
    let (micros, rest) := match rest with
      | '.' :: rest => (fractionMicros (rest.takeWhile Char.isDigit), rest.dropWhile Char.isDigit)
      | rest => (0, rest)
    let total := ((hour * 60 + minute) * 60 + second) * 1000000 + micros
    if minute < 60 ∧ second < 60 ∧ (total : Int) ≤ microsPerDay then some (total, rest) else none
  | _ => none

/-- The microseconds that a local time is ahead of universal time, at the end of a text. -/
def offsetMicros? (text : List Char) : Option Int :=
  match text with
  | [] => some 0
  | 'Z' :: rest => if (skipSpace rest).isEmpty then some 0 else none
  | ' ' :: rest =>
    if (skipSpace rest).isEmpty || (strip rest).map Char.toLower == ['u', 't', 'c'] then some 0
    else none
  | sign :: rest =>
    if sign = '+' ∨ sign = '-' then do
      let (hours, rest) ← shortNumber? rest
      let (minutes, rest) ← match rest with
        | ':' :: rest => shortNumber? rest
        | rest => if (skipSpace rest).isEmpty then some (0, rest) else shortNumber? rest
      if (skipSpace rest).isEmpty ∧ minutes < 60 then
        let micros : Int := (hours * 60 + minutes) * 60000000
        some (if sign = '-' then -micros else micros)
      else none
    else none

/-- A count of microseconds, unless it lies outside 64 bits or stands for an end of time. -/
def instant? (micros : Int) : Option Int :=
  if IntegerType.int64.holds micros && micros.natAbs != endOfTime.toNat then some micros else none

/-- An instant as microseconds since the start of 1970: a date and an optional time of day. -/
def timestamp? (text : List Char) : Option Int :=
  match namedDay? text with
  | some days =>
    some (if days = endOfDays then endOfTime else if days = -endOfDays then -endOfTime else 0)
  | none => do
    let (date, rest) ← splitDate? text
    let start := date.toEpochDays * microsPerDay
    match rest with
    | [] => instant? start
    | c :: clock =>
      let (micros, zone) ← splitTime? (if c = ' ' ∨ c = 'T' then clock else c :: clock)
      let reading ← instant? (start + micros)
      let offset ← offsetMicros? zone
      instant? (reading - offset)

example : date? " -Infinity ".toList = some (-endOfDays) := by decide
example : date? "0044-03-15 (BC)".toList = date? "-43-3-15".toList := by decide
example : timestamp? "2024-02-29 24:00:00 UTC".toList = timestamp? "2024-03-01".toList := by decide
example : integer? ⟨true, 8⟩ " +1_2.5 ".toList = some 13 := by decide
example : integer? ⟨false, 8⟩ "0xFf".toList = some 255 := by decide
example : boolean? "Yes".toList = some true := by decide
example : timestamp? "1969-12-31 23:59:59.5".toList = some (-500000) := by decide

end ParamQuery.Cast
