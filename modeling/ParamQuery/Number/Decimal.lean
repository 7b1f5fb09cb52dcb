import ParamQuery.Text.Numeral

/-!
# Decimal numbers

Numbers written in decimal, with an optional fraction and an optional power of ten, and their
rounding to whole numbers.
-/

namespace ParamQuery

open Text

/-- The number `coefficient * 10 ^ exponent`, with its sign; a zero keeps its sign. -/
structure Decimal where
  negative : Bool
  coefficient : Nat
  exponent : Int
  deriving DecidableEq, Repr

namespace Decimal

/-- Digits after an optional sign. -/
def readExponent? : List Char → Option Int
  | '-' :: rest => (natural? rest).map fun n => -(n : Int)
  | '+' :: rest => (natural? rest).map Int.ofNat
  | text => (natural? text).map Int.ofNat

/-- The fraction after a point, if one follows, and the rest. -/
def splitFraction : List Char → List Char × List Char
  | '.' :: rest => (rest.takeWhile Char.isDigit, rest.dropWhile Char.isDigit)
  | text => ([], text)

/-- Digits, then an optional fraction, then an optional power of ten. A point may miss the digits
on one of its sides. -/
def readUnsigned? (negative : Bool) (text : List Char) : Option Decimal :=
  let whole := text.takeWhile Char.isDigit
  let (fraction, rest) := splitFraction (text.dropWhile Char.isDigit)
  let coefficient := digitsValue 0 (whole ++ fraction)
  if whole.isEmpty && fraction.isEmpty then none
  else
    match rest with
    | [] => some ⟨negative, coefficient, -fraction.length⟩
    | c :: power =>
      if c = 'e' ∨ c = 'E' then
        (readExponent? power).map fun e => ⟨negative, coefficient, e - fraction.length⟩
      else none

/-- A decimal number after an optional sign. -/
def read? : List Char → Option Decimal
  | '-' :: rest => readUnsigned? true rest
  | '+' :: rest => readUnsigned? false rest
  | text => readUnsigned? false text

/-- The number of digits before the point in `coefficient * 10 ^ exponent`. -/
def magnitude (d : Decimal) : Int :=
  (toString d.coefficient).length + d.exponent

/-- The nearest whole number to `n / d`; a half goes away from zero. -/
def roundHalfUp (n d : Nat) : Nat :=
  (2 * n + d) / (2 * d)

/-- The nearest multiple of `10 ^ -places`, counted in these units, if it has at most `digits`
digits; a half goes away from zero. -/
def toUnits? (digits : Nat) (places : Nat) (d : Decimal) : Option Int :=
  let e := d.exponent + places
  let size : Option Nat :=
    if d.coefficient = 0 then some 0
    else if d.magnitude + places > digits then none
    else if d.magnitude + places < 0 then some 0
    else if 0 ≤ e then some (d.coefficient * Nat.pow 10 e.toNat)
    else some (roundHalfUp d.coefficient (Nat.pow 10 (-e).toNat))
  (size.filter fun n => n < Nat.pow 10 digits).map fun n => if d.negative then -(n : Int) else n

example : read? "-12.50e1".toList = some ⟨true, 1250, -1⟩ := by decide
example : read? ".".toList = none := by decide
example : (read? "2.5".toList).bind (toUnits? 9 0) = some 3 := by decide
example : (read? "-0.4".toList).bind (toUnits? 9 0) = some 0 := by decide
example : (read? "1.10".toList).bind (toUnits? 5 2) = some 110 := by decide

end Decimal

end ParamQuery
