import ParamQuery.Proofs.Value.Instants
import ParamQuery.Proofs.Value.Parts
import ParamQuery.Proofs.Number.Rounding

/-!
# Null values

NULL becomes JSON's null, but some values that are not NULL do too: numbers that are not finite,
dates and time stamps outside the calendar, and the time at the very end of a day. No other value
becomes null, at any depth.

## Main definitions

* `Datum.IsNull` — a value is NULL, or a union of NULL.
* `Datum.Unwritable` — a value that has no JSON form of its own.

## Main statements

* `Datum.nulls_of_toJson` — which parts of a JSON form are null.
-/

namespace ParamQuery

theorem Json.ofBinary64_eq_null_iff {x : Binary64} : ofBinary64 x = .null ↔ x.isFinite = false := by
  rw [ofBinary64]
  split
  · next h => simp [h]
  · next h => simpa using h

theorem Json.ofOption_text_eq_null_iff {text? : Option (List Char)} :
    ofOption text text? = .null ↔ text? = none := by
  cases text? <;> simp [ofOption, text]

namespace Datum

/-- A value is NULL, or a union that holds NULL. -/
def IsNull : Datum → Prop
  | .null => True
  | .union member => member.IsNull
  | _ => False

/-- The binary number that is nearest to a decimal one. -/
def nearest (unscaled : Int) (scale : Nat) : Binary64 :=
  .ofRatio (unscaled < 0) unscaled.natAbs (Nat.pow 10 scale)

/-- A value that is not NULL but has no JSON form of its own: a number that is not finite, a day or
an instant without a text, and a time that is not before the end of the day. -/
def Unwritable : Datum → Prop
  | .float x => x.isFinite = false
  | .decimal unscaled scale _ => (nearest unscaled scale).isFinite = false
  | .date days => ¬ (Date.firstDay ≤ days ∧ days ≤ Date.finalDay)
  | .timestamp unit count =>
    ¬ (firstInstant ≤ (unit.toMicros count).toInt ∧ (unit.toMicros count).toInt ≤ finalInstant)
  | .time micros => ¬ (0 ≤ micros ∧ micros < microsPerDay)
  | .union member => member.Unwritable
  | _ => False

theorem timeJson_eq_null_iff {micros : Int} :
    timeJson micros = .null ↔ ¬ (0 ≤ micros ∧ micros < microsPerDay) := by
  rw [timeJson]
  split
  · next h => simp [h, Json.text]
  · next h => simp [h]

theorem hugeJson_ne_null (n : Int) : hugeJson n ≠ .null := by
  rw [hugeJson]
  split <;> simp

/-- A value becomes null if it is NULL or has no JSON form of its own, and only then. -/
theorem toJson_eq_null_iff (d : Datum) : d.toJson = .null ↔ d.IsNull ∨ d.Unwritable := by
  fun_induction IsNull d with
  | case1 => simp [toJson]
  | case2 member ih => rw [toJson, ih, Unwritable]
  | case3 d hnull hunion =>
    rw [false_or]
    cases d with
    | null => exact (hnull rfl).elim
    | union member => exact (hunion member rfl).elim
    | hugeint n => simpa [Unwritable, toJson] using hugeJson_ne_null n
    | float x => rw [toJson, Json.ofBinary64_eq_null_iff, Unwritable]
    | decimal unscaled scale =>
      rw [toJson, decimalJson, ← nearest, Json.ofBinary64_eq_null_iff, Unwritable]
    | date days => rw [toJson, Json.ofOption_text_eq_null_iff, isoDay?_eq_none_iff, Unwritable]
    | timestamp unit count => rw [toJson, timestampJson_eq_null_iff, Unwritable]
    | time micros => rw [toJson, timeJson_eq_null_iff, Unwritable]
    | _ => simp [Unwritable, toJson, Json.text, intervalJson, Json.ofMembers]

/-- A decimal number of up to 128 bits has a finite nearest value. -/
theorem isFinite_nearest {unscaled : Int} (h : unscaled.natAbs < Nat.pow 2 128) (scale : Nat) :
    (nearest unscaled scale).isFinite = true := by
  have hpower : 0 < Nat.pow 10 scale := Nat.pow_pos (by decide)
  have hsmall : unscaled.natAbs < Nat.pow 2 128 * Nat.pow 10 scale :=
    h.trans_le (Nat.le_mul_of_pos_right _ hpower)
  exact Binary64.isFinite_ofRatio _ hpower (by decide) hsmall

/-- The parts of a JSON form are those of the value, at any depth. One of them is null exactly if
the part of the value is NULL or has no JSON form of its own. A decimal number always has one, also
a whole one in a column. -/
theorem nulls_of_toJson (d : Datum) :
    (∀ path, d.toJson.at? path = (d.at? path).map toJson) ∧
    (∀ path, d.toJson.at? path = some .null ↔
      ∃ part, d.at? path = some part ∧ (part.IsNull ∨ part.Unwritable)) ∧
    ∀ unscaled scale, unscaled.natAbs < Nat.pow 2 128 →
      decimalJson unscaled scale ≠ .null ∧
        ∀ hscale, ¬ (decimal unscaled scale hscale).Unwritable := by
  refine ⟨at?_toJson d, fun path => ?_, fun unscaled scale h => ?_⟩
  · rw [at?_toJson, Option.map_eq_some_iff]
    simp only [toJson_eq_null_iff]
  · have hfinite := isFinite_nearest h scale
    rw [decimalJson, ← nearest, ne_eq, Json.ofBinary64_eq_null_iff]
    simp [Unwritable, hfinite]

/-- Numbers that are not finite, days and instants outside the calendar, and the end of a day. -/
def unwritables : List Datum :=
  [.float .nan, .float (.infinity true), .date 100000000, .date endOfDays,
    .timestamp .microsecond 9000000000000000000, .timestamp .microsecond Int64.maxValue,
    .time 86400000000]

/-- None of these is NULL, and all become null, alone and inside a list. -/
theorem null_of_unwritable :
    (¬ ∃ d ∈ unwritables, d.IsNull) ∧ (date 100000000).toJson = .null ∧
      (time 86400000000).toJson = .null ∧ (float .nan).toJson = .null ∧
      (list unwritables).toJson = .array (List.replicate 7 .null) :=
  ⟨by simp [unwritables, IsNull], by decide, by decide, by decide, by decide⟩

end Datum

end ParamQuery
