import ParamQuery.Number.IntegerType

/-!
# Numerals

Whole numbers in decimal: digits without separators, with an optional sign, within a range.
-/

namespace ParamQuery.Text

/-- The value of an ASCII digit. -/
def digitValue (c : Char) : Nat := c.toNat - '0'.toNat

/-- The number that a list of digits stands for, after the digits read so far. -/
def digitsValue (start : Nat) (digits : List Char) : Nat :=
  digits.foldl (fun n c => 10 * n + digitValue c) start

/-- The number of a non-empty list of ASCII digits. -/
def natural? (text : List Char) : Option Nat :=
  if !text.isEmpty && text.all Char.isDigit then some (digitsValue 0 text) else none

/-- Decimal digits, after a `+` that may be left out, of a number below `2 ^ 64`. -/
def count? (text : List Char) : Option Nat :=
  let digits := match text with
    | '+' :: rest => rest
    | _ => text
  (natural? digits).filter fun n => IntegerType.uint64.holds n

/-- Decimal digits after an optional sign, of a number of 64 bits. -/
def integer? (text : List Char) : Option Int :=
  let signed : Option Int := match text with
    | '-' :: rest => (natural? rest).map fun n => -(n : Int)
    | '+' :: rest => (natural? rest).map Int.ofNat
    | _ => (natural? text).map Int.ofNat
  signed.filter IntegerType.int64.holds

/-- A number in decimal, with zeros in front up to `width` digits. -/
def padded (width n : Nat) : List Char :=
  let digits := (toString n).toList
  List.replicate (width - digits.length) '0' ++ digits

/-- An ASCII letter in lower case; any other character as it is. -/
def asciiLower (text : String) : String :=
  String.ofList (text.toList.map Char.toLower)

example : count? "+07".toList = some 7 := by decide
example : count? "-0".toList = none := by decide
example : count? "18446744073709551616".toList = none := by decide
example : integer? "-9223372036854775808".toList = some (-9223372036854775808) := by decide

end ParamQuery.Text
