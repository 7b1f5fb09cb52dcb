import ParamQuery.Number.Decimal

/-!
# Binary floating point

Numbers in the 64-bit binary format as bit patterns, with exact arithmetic on their values: a finite
pattern stands for `± mantissa * 2 ^ exponent`. Decimal numbers are rounded to the nearest value of
a binary format, a tie going to the even mantissa.

## Main definitions

* `BinaryFormat` — the precision and the exponents of a binary format.
* `Binary64` — the bit patterns of the 64-bit format.
* `Binary64.ofDecimal` — the nearest value, through a format that may be narrower.
-/

namespace ParamQuery

/-- The finite values of a format are `m * 2 ^ q` with `m < 2 ^ precision` and
`least ≤ q ≤ greatest`. -/
structure BinaryFormat where
  precision : Nat
  least : Int
  greatest : Int
  deriving DecidableEq, Repr

namespace BinaryFormat

/-- The format of 64 bits. -/
def double : BinaryFormat := ⟨53, -1074, 971⟩

/-- The format of 32 bits. -/
def single : BinaryFormat := ⟨24, -149, 104⟩

/-- The product with a power of two, as a fraction. -/
def scale (n d : Nat) (q : Int) : Nat × Nat :=
  if 0 ≤ q then (n * Nat.pow 2 q.toNat, d) else (n, d * Nat.pow 2 (-q).toNat)

/-- The exponent `e` with `2 ^ e ≤ n / d < 2 ^ (e + 1)`. -/
def binade (n d : Nat) : Int :=
  let e : Int := (n.log2 : Int) - d.log2
  let bound := scale d 1 e
  if bound.1 ≤ n * bound.2 then e else e - 1

/-- The nearest whole number to `n / d`; a half goes to the even neighbour. -/
def roundHalfEven (n d : Nat) : Nat :=
  let low := n / d
  let twice := 2 * (n % d)
  if twice < d ∨ (twice = d ∧ low % 2 = 0) then low else low + 1

/-- The mantissa and the exponent of the value nearest to `n / d`; none if it lies beyond the
largest value. -/
def round? (format : BinaryFormat) (n d : Nat) : Option (Nat × Int) :=
  let q := max (binade n d - (format.precision - 1)) format.least
  let ratio := scale n d (-q)
  let m := roundHalfEven ratio.1 ratio.2
  let (m, q) := if m = Nat.pow 2 format.precision then (m / 2, q + 1) else (m, q)
  if q ≤ format.greatest then some (m, q) else none

end BinaryFormat

/-- A bit pattern of the 64-bit binary format: sign, eleven bits of exponent, 52 of fraction. -/
structure Binary64 where
  bits : UInt64
  deriving DecidableEq, Repr

namespace Binary64

/-- The weight of the lowest bit of the exponent, `2 ^ 52`. -/
def exponentUnit : Nat := 4503599627370496

/-- The weight of the sign, `2 ^ 63`. -/
def signUnit : Nat := 9223372036854775808

def fraction (x : Binary64) : Nat := x.bits.toNat % exponentUnit

def biasedExponent (x : Binary64) : Nat := x.bits.toNat / exponentUnit % 2048

def negative (x : Binary64) : Bool := x.bits.toNat / signUnit == 1

def isFinite (x : Binary64) : Bool := x.biasedExponent != 2047

def isNaN (x : Binary64) : Bool := !x.isFinite && x.fraction != 0

/-- The mantissa of a finite pattern: the fraction, with a leading one unless it is subnormal. -/
def mantissa (x : Binary64) : Nat :=
  if x.biasedExponent = 0 then x.fraction else exponentUnit + x.fraction

/-- The exponent of two that belongs to the mantissa. -/
def exponent (x : Binary64) : Int :=
  (max x.biasedExponent 1 : Nat) - 1075

/-- The pattern with this sign and these remaining 63 bits. -/
def ofParts (negative : Bool) (rest : Nat) : Binary64 :=
  ⟨UInt64.ofNat ((if negative then signUnit else 0) + rest)⟩

def infinity (negative : Bool) : Binary64 := ofParts negative (2047 * exponentUnit)

def nan : Binary64 := ofParts false (2047 * exponentUnit + exponentUnit / 2)

/-- The pattern of `± m * 2 ^ q`, for a mantissa and an exponent of the 64-bit format. -/
def ofMantissa (negative : Bool) (m : Nat) (q : Int) : Binary64 :=
  if m < exponentUnit then ofParts negative m
  else ofParts negative ((q + 1075).toNat * exponentUnit + (m - exponentUnit))

/-- The value nearest to `± n / d`. -/
def ofRatio (negative : Bool) (n d : Nat) : Binary64 :=
  if n = 0 then ofParts negative 0
  else
    match BinaryFormat.double.round? n d with
    | some (m, q) => ofMantissa negative m q
    | none => infinity negative

/-- The value of a format that is nearest to a decimal number. Numbers far beyond the range of the
format become infinite or zero without being computed. -/
def ofDecimal (format : BinaryFormat) (d : Decimal) : Binary64 :=
  if d.coefficient = 0 ∨ d.magnitude < -400 then ofParts d.negative 0
  else if d.magnitude > 400 then infinity d.negative
  else
    let ratio : Nat × Nat :=
      if 0 ≤ d.exponent then (d.coefficient * Nat.pow 10 d.exponent.toNat, 1)
      else (d.coefficient, Nat.pow 10 (-d.exponent).toNat)
    match format.round? ratio.1 ratio.2 with
    | some (m, q) =>
      let exact := BinaryFormat.scale m 1 q
      ofRatio d.negative exact.1 exact.2
    | none => infinity d.negative

/-- Reads a decimal number, an infinity or a NaN; the words may be in any case and have a sign. -/
def read? (format : BinaryFormat) (text : List Char) : Option Binary64 :=
  let (negative, rest) : Bool × List Char := match text with
    | '-' :: rest => (true, rest)
    | '+' :: rest => (false, rest)
    | _ => (false, text)
  let word := String.ofList (rest.map Char.toLower)
  if word = "inf" ∨ word = "infinity" then some (infinity negative)
  else if word = "nan" then some nan
  else (Decimal.readUnsigned? negative rest).map (ofDecimal format)

/-- Where a pattern stands in the numeric order: both zeros at the same place, a NaN after the
infinities. -/
def rank (x : Binary64) : Int :=
  if x.isNaN then 2 * signUnit
  else
    let size : Int := (x.bits.toNat % signUnit : Nat)
    if x.negative then -size else size

example : (ofDecimal .double ⟨false, 1, -1⟩).bits = 0x3FB999999999999A := by decide +kernel
example : (ofDecimal .double ⟨false, 5, -324⟩).bits = 1 := by decide +kernel
example : (ofDecimal .double ⟨true, 17976931348623157, 292⟩).bits = 0xFFEFFFFFFFFFFFFF := by
  decide +kernel
example : ofDecimal .double ⟨false, 18, 307⟩ = infinity false := by decide +kernel
example : (ofDecimal .single ⟨false, 1, -1⟩).bits = 0x3FB99999A0000000 := by decide +kernel

end Binary64

end ParamQuery
