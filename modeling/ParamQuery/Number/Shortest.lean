import ParamQuery.Number.Binary64

/-!
# Shortest decimal text

The fewest decimal digits that read back as the same 64-bit value, nearest to it among those with as
many digits, and their layout as text.

## Main definitions

* `Shortest.digits` — the coefficient and the power of ten.
* `FloatLayout` — which powers of ten are written out, and how the others are marked.
* `FloatLayout.render` — the text of a finite value.
-/

namespace ParamQuery

namespace Shortest

/-- The numbers that round to `mantissa * 2 ^ exponent`, in quarters of the last place: those
between `low` and `high`, and these two themselves if the mantissa is even. Below a power of two
the next value is only half as far away. -/
structure Interval where
  low : Nat
  value : Nat
  high : Nat
  closed : Bool
  deriving DecidableEq, Repr

/-- The numbers that round to a finite value that is not zero. -/
def interval (x : Binary64) : Interval where
  low := 4 * x.mantissa - (if x.fraction = 0 ∧ 1 < x.biasedExponent then 1 else 2)
  value := 4 * x.mantissa
  high := 4 * x.mantissa + 2
  closed := x.mantissa % 2 == 0

/-- Whether the point `d` of a grid lies in an interval, where one quarter of a last place is
`n / g` steps of the grid. -/
def Interval.holds (i : Interval) (n g d : Nat) : Bool :=
  if i.closed then i.low * n ≤ d * g && d * g ≤ i.high * n
  else i.low * n < d * g && d * g < i.high * n

/-- The point of a grid that lies in the interval and is nearest to its value; of two as near, the
even one. -/
def Interval.nearest? (i : Interval) (n g : Nat) : Option Nat :=
  let below := i.value * n / g
  let above := below + 1
  let gapBelow := i.value * n - below * g
  let gapAbove := above * g - i.value * n
  match i.holds n g below && 0 < below, i.holds n g above with
  | true, true =>
    if gapBelow < gapAbove ∨ (gapBelow = gapAbove ∧ below % 2 = 0) then some below else some above
  | true, false => some below
  | false, true => some above
  | false, false => none

/-- The product with a power of ten, as a fraction. -/
def scale (n d : Nat) (k : Int) : Nat × Nat :=
  if 0 ≤ k then (n * Nat.pow 10 k.toNat, d) else (n, d * Nat.pow 10 (-k).toNat)

/-- The exponent `e` with `10 ^ e ≤ n / d < 10 ^ (e + 1)`, from an estimate that is off by at most
one. -/
def decade (n d : Nat) : Int :=
  let estimate := BinaryFormat.binade n d * 30103 / 100000
  let reaches (e : Int) : Bool :=
    let power := scale 1 1 e
    power.1 * d ≤ n * power.2
  if reaches (estimate + 1) then estimate + 1
  else if reaches estimate then estimate
  else estimate - 1

/-- Moves zeros at the end of a coefficient into the power of ten. -/
def normalize : Nat → Nat → Int → Nat × Int
  | 0, coefficient, power => (coefficient, power)
  | steps + 1, coefficient, power =>
    if coefficient % 10 = 0 ∧ coefficient ≠ 0 then normalize steps (coefficient / 10) (power + 1)
    else (coefficient, power)

/-- The shortest coefficient and its power of ten, for a finite value that is not zero. Seventeen
digits always suffice. -/
def digits (x : Binary64) : Nat × Int :=
  let i := interval x
  let unit := BinaryFormat.scale 1 1 (x.exponent - 2)
  let top := decade (i.value * unit.1) unit.2
  let found := (List.range 17).findSome? fun (extra : Nat) =>
    let power := top - (extra : Int)
    let grid := scale unit.1 unit.2 (-power)
    (i.nearest? grid.1 grid.2).map fun d => (d, power)
  let (coefficient, power) := found.getD (0, 0)
  normalize 17 coefficient power

end Shortest

/-- How a finite value is laid out. Powers of ten of the first digit from `lowest` to `highest` are
written out with a point, the others with a marked power of at least `powerDigits` digits. -/
structure FloatLayout where
  lowest : Int
  highest : Int
  powerDigits : Nat
  deriving DecidableEq, Repr

namespace FloatLayout

open Text

/-- The text of a coefficient and its power of ten. A whole number written out ends in `.0`. -/
def layDigits (layout : FloatLayout) (coefficient : Nat) (power : Int) : List Char :=
  let digits := (toString coefficient).toList
  let first : Int := power + digits.length - 1
  if layout.lowest ≤ first ∧ first ≤ layout.highest then
    if 0 ≤ power then digits ++ List.replicate power.toNat '0' ++ ['.', '0']
    else if 0 ≤ first then
      digits.take (first.toNat + 1) ++ '.' :: digits.drop (first.toNat + 1)
    else ['0', '.'] ++ List.replicate (-first - 1).toNat '0' ++ digits
  else
    let tail := digits.drop 1
    digits.take 1 ++ (if tail.isEmpty then [] else '.' :: tail) ++
      ['e', if first < 0 then '-' else '+'] ++ padded layout.powerDigits first.natAbs

/-- The text of a finite value; a zero keeps its sign. -/
def render (layout : FloatLayout) (x : Binary64) : List Char :=
  let sign := if x.negative then ['-'] else []
  if x.mantissa = 0 then sign ++ ['0', '.', '0']
  else
    let (coefficient, power) := Shortest.digits x
    sign ++ layout.layDigits coefficient power

end FloatLayout

end ParamQuery
