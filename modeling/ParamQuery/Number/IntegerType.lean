/-!
# Types of whole numbers

Whole numbers of a fixed number of bits, with or without a sign, and the range of each type.
-/

namespace ParamQuery

/-- A type of whole numbers. -/
structure IntegerType where
  signed : Bool
  bits : Nat
  deriving DecidableEq, Repr

namespace IntegerType

/-- The least number of a type: zero without a sign, and `-2 ^ (bits - 1)` with one. -/
def least (t : IntegerType) : Int :=
  if t.signed then -(Nat.pow 2 (t.bits - 1) : Nat) else 0

/-- The greatest number of a type: `2 ^ bits - 1` without a sign; a sign takes one bit. -/
def greatest (t : IntegerType) : Int :=
  (Nat.pow 2 (if t.signed then t.bits - 1 else t.bits) : Nat) - 1

/-- Whether the type holds a number. -/
def holds (t : IntegerType) (n : Int) : Bool := t.least ≤ n && n ≤ t.greatest

/-- The type of 32 bits with a sign. -/
def int32 : IntegerType := ⟨true, 32⟩

/-- The type of 64 bits with a sign. -/
def int64 : IntegerType := ⟨true, 64⟩

/-- The type of 64 bits without a sign. -/
def uint64 : IntegerType := ⟨false, 64⟩

theorem holds_iff {t : IntegerType} {n : Int} :
    t.holds n = true ↔ t.least ≤ n ∧ n ≤ t.greatest := by
  simp [holds]

/-- A count fits 64 bits with a sign below `2 ^ 63`. -/
theorem int64_holds_ofNat_iff {n : Nat} :
    int64.holds n = true ↔ n < 9223372036854775808 := by
  rw [holds_iff, show int64.least = -9223372036854775808 from rfl,
    show int64.greatest = 9223372036854775807 from rfl]
  omega

/-- A count fits 64 bits without a sign below `2 ^ 64`. -/
theorem uint64_holds_ofNat_iff {n : Nat} :
    uint64.holds n = true ↔ n < 18446744073709551616 := by
  rw [holds_iff, show uint64.least = 0 from rfl,
    show uint64.greatest = 18446744073709551615 from rfl]
  omega

example : int32.least = -2147483648 ∧ int32.greatest = 2147483647 := by decide

end IntegerType

end ParamQuery
