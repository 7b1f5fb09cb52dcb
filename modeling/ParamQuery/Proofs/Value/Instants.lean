import ParamQuery.Proofs.Calendar.Texts
import ParamQuery.Store.Datum

/-!
# Time stamps as instants

A time stamp counts seconds, milliseconds, microseconds or nanoseconds in 64 bits, and its text is
made from its count of microseconds, in 64 bits too. Microseconds and nanoseconds always fit; of
seconds and milliseconds those do that are not too far from 1970. Where they fit the text is that of
exactly this instant, or there is none. Where they do not fit the instant lies outside the calendar,
but the count wraps around, and the text, if there is one, is that of another instant.

## Main definitions

* `TimeUnit.micros` — a count of a unit in microseconds, without bounds.
* `TimeUnit.Fits` — this number fits 64 bits.

## Main statements

* `TimeUnit.toInt_toMicros` — the count of microseconds is this number, wrapped around.
* `TimeUnit.fits_iff` — which counts fit.
* `Datum.instant_of_timestampJson` — the text of a time stamp.
-/

namespace ParamQuery

namespace TimeUnit

/-- A count of a unit in microseconds; a part of a microsecond is cut off toward zero. -/
def micros : TimeUnit → Int → Int
  | .second, count => count * 1000000
  | .millisecond, count => count * 1000
  | .microsecond, count => count
  | .nanosecond, count => count.tdiv 1000

/-- The count of microseconds fits 64 bits. -/
def Fits (unit : TimeUnit) (count : Int64) : Prop :=
  IntegerType.int64.holds (unit.micros count.toInt) = true

instance (unit : TimeUnit) (count : Int64) : Decidable (unit.Fits count) :=
  inferInstanceAs (Decidable (_ = true))

theorem fits_iff_bounds {unit : TimeUnit} {count : Int64} :
    unit.Fits count ↔ -9223372036854775808 ≤ unit.micros count.toInt ∧
      unit.micros count.toInt ≤ 9223372036854775807 :=
  IntegerType.holds_iff

/-- Microseconds and nanoseconds always fit, seconds and milliseconds up to a bound. -/
theorem fits_iff {unit : TimeUnit} {count : Int64} :
    unit.Fits count ↔ match unit with
      | .second => -9223372036854 ≤ count.toInt ∧ count.toInt ≤ 9223372036854
      | .millisecond => -9223372036854775 ≤ count.toInt ∧ count.toInt ≤ 9223372036854775
      | .microsecond | .nanosecond => True := by
  have hlow := count.le_toInt
  have hhigh := count.toInt_lt
  rw [fits_iff_bounds]
  cases unit with
  | second | millisecond =>
    simp only [micros]
    omega
  | microsecond =>
    simp only [micros, iff_true]
    omega
  | nanosecond =>
    have hsign : Int.sign 1000 = 1 := rfl
    simp only [micros, iff_true, Int.tdiv_eq_ediv, hsign]
    split <;> omega

/-- The count of microseconds is wrapped around into 64 bits. -/
theorem toInt_toMicros (unit : TimeUnit) (count : Int64) :
    (unit.toMicros count).toInt = (unit.micros count.toInt).bmod (2 ^ 64) := by
  cases unit with
  | second => exact Int64.toInt_mul count 1000000
  | millisecond => exact Int64.toInt_mul count 1000
  | microsecond => exact count.toInt_bmod.symm
  | nanosecond => exact Int64.toInt_div count 1000

/-- A count that fits is not changed. -/
theorem toInt_toMicros_of_fits {unit : TimeUnit} {count : Int64} (h : unit.Fits count) :
    (unit.toMicros count).toInt = unit.micros count.toInt := by
  rw [fits_iff_bounds] at h
  rw [toInt_toMicros]
  exact Int.bmod_eq_of_le (by omega) (by omega)

/-- A count that does not fit becomes another one. -/
theorem toInt_toMicros_ne {unit : TimeUnit} {count : Int64} (h : ¬ unit.Fits count) :
    (unit.toMicros count).toInt ≠ unit.micros count.toInt := by
  have hlow := (unit.toMicros count).le_toInt
  have hhigh := (unit.toMicros count).toInt_lt
  rw [fits_iff_bounds] at h
  omega

end TimeUnit

namespace Datum

theorem text_inj {text text' : List Char} : Json.text text = Json.text text' ↔ text = text' := by
  rw [Json.text, Json.text, Json.string.injEq, String.ofList_inj]

/-- The text of a time stamp is that of its count of microseconds. -/
theorem timestampJson_eq_text_iff {unit : TimeUnit} {count : Int64} {text : List Char} :
    timestampJson unit count = .text text ↔
      (firstInstant ≤ (unit.toMicros count).toInt ∧ (unit.toMicros count).toInt ≤ finalInstant) ∧
        IsInstant text (unit.toMicros count).toInt := by
  rw [← isoInstant?_eq_some_iff, timestampJson]
  cases isoInstant? (unit.toMicros count).toInt with
  | none => simp [Json.ofOption, Json.text]
  | some text' => rw [Json.ofOption, text_inj, Option.some.injEq]

theorem timestampJson_eq_null_iff {unit : TimeUnit} {count : Int64} :
    timestampJson unit count = .null ↔
      ¬ (firstInstant ≤ (unit.toMicros count).toInt ∧
        (unit.toMicros count).toInt ≤ finalInstant) := by
  rw [← isoInstant?_eq_none_iff, timestampJson]
  cases isoInstant? (unit.toMicros count).toInt <;> simp [Json.ofOption, Json.text]

/-- What does not fit 64 bits lies outside the calendar. -/
theorem outside_of_not_fits {unit : TimeUnit} {count : Int64} (h : ¬ unit.Fits count) :
    ¬ (firstInstant ≤ unit.micros count.toInt ∧ unit.micros count.toInt ≤ finalInstant) := by
  have hfirst : firstInstant = -8334601228800000000 := by decide
  have hfinal : finalInstant = 8210266876799999999 := by decide
  rw [TimeUnit.fits_iff_bounds] at h
  omega

/-- The text of a time stamp is that of exactly its instant, and there is none outside the calendar,
if the instant fits 64 bits in microseconds. If it does not it lies outside the calendar, but
another instant stands for it, to which the text, if there is one, belongs. -/
theorem instant_of_timestampJson (unit : TimeUnit) (count : Int64) :
    (unit.Fits count ↔ match unit with
      | .second => -9223372036854 ≤ count.toInt ∧ count.toInt ≤ 9223372036854
      | .millisecond => -9223372036854775 ≤ count.toInt ∧ count.toInt ≤ 9223372036854775
      | .microsecond | .nanosecond => True) ∧
    (unit.Fits count →
      (unit.toMicros count).toInt = unit.micros count.toInt ∧
      (timestampJson unit count = .null ↔
        ¬ (firstInstant ≤ unit.micros count.toInt ∧ unit.micros count.toInt ≤ finalInstant)) ∧
      ∀ text, timestampJson unit count = .text text ↔
        (firstInstant ≤ unit.micros count.toInt ∧ unit.micros count.toInt ≤ finalInstant) ∧
          IsInstant text (unit.micros count.toInt)) ∧
    (¬ unit.Fits count →
      (unit.toMicros count).toInt = (unit.micros count.toInt).bmod (2 ^ 64) ∧
      ¬ (firstInstant ≤ unit.micros count.toInt ∧ unit.micros count.toInt ≤ finalInstant) ∧
      ∀ text, timestampJson unit count = .text text →
        IsInstant text (unit.toMicros count).toInt ∧
          ¬ IsInstant text (unit.micros count.toInt)) := by
  refine ⟨TimeUnit.fits_iff, fun hfits => ?_, fun hfits => ?_⟩
  · have hexact := TimeUnit.toInt_toMicros_of_fits hfits
    refine ⟨hexact, ?_, fun text => ?_⟩
    · rw [timestampJson_eq_null_iff, hexact]
    · rw [timestampJson_eq_text_iff, hexact]
  · refine ⟨TimeUnit.toInt_toMicros unit count, outside_of_not_fits hfits, fun text htext => ?_⟩
    have hinstant := (timestampJson_eq_text_iff.1 htext).2
    exact ⟨hinstant, fun hexact =>
      TimeUnit.toInt_toMicros_ne hfits (hinstant.unique hexact)⟩

/-- The count that stands for the end of time fits neither in seconds nor in milliseconds. Its text
is that of an instant of the year 1969. -/
theorem instant_wraps_around :
    (¬ TimeUnit.second.Fits Int64.maxValue ∧
      (TimeUnit.second.toMicros Int64.maxValue).toInt = -1000000 ∧
      timestampJson .second Int64.maxValue = .string "1969-12-31T23:59:59Z" ∧
      ¬ IsInstant "1969-12-31T23:59:59Z".toList (TimeUnit.second.micros Int64.maxValue.toInt)) ∧
    ¬ TimeUnit.millisecond.Fits Int64.maxValue ∧
      (TimeUnit.millisecond.toMicros Int64.maxValue).toInt = -1000 ∧
      timestampJson .millisecond Int64.maxValue = .string "1969-12-31T23:59:59.999Z" ∧
      ¬ IsInstant "1969-12-31T23:59:59.999Z".toList
        (TimeUnit.millisecond.micros Int64.maxValue.toInt) := by
  have hother {unit : TimeUnit} {text : List Char} (hfits : ¬ unit.Fits Int64.maxValue)
      (htext : timestampJson unit Int64.maxValue = .text text) :
      ¬ IsInstant text (unit.micros Int64.maxValue.toInt) := fun hexact =>
    TimeUnit.toInt_toMicros_ne hfits ((timestampJson_eq_text_iff.1 htext).2.unique hexact)
  have hsecond : ¬ TimeUnit.second.Fits Int64.maxValue := by decide
  have hmillisecond : ¬ TimeUnit.millisecond.Fits Int64.maxValue := by decide
  exact ⟨⟨hsecond, by decide, by decide, hother hsecond (by decide)⟩,
    hmillisecond, by decide, by decide, hother hmillisecond (by decide)⟩

end Datum

end ParamQuery
