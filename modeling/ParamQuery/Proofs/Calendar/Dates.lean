import Mathlib.Order.Monotone.Basic
import Mathlib.Tactic.IntervalCases
import ParamQuery.Calendar

/-!
# Dates and counts of days

Counts of days and dates are two forms of the same thing: every count is that of one date of the
calendar, and every date of the calendar has one count. Both forms are compared with a third one,
the place of a day in its cycle of 400 years, where years are counted from March and the leap day is
the last day of its year.

## Main definitions

* `CycleDay` — a day by its cycle, its year and its place in the year.

## Main statements

* `Date.toEpochDays_ofEpochDays`, `Date.ofEpochDays_toEpochDays` — the two forms belong together.
* `Date.isValid_ofEpochDays` — every count of days is that of a date of the calendar.
* `Date.inRange_ofEpochDays_iff` — the counts of the years that have an ISO text.
-/

namespace ParamQuery

/-! ## Cycles of 400 years -/

/-- The year of a cycle in which a day of the cycle lies, both counted from zero. -/
def yearOfCycle (day : Int) : Int := (day - day / 1460 + day / 36524 - day / 146096) / 365

/-- The days of a cycle before one of its years. -/
def yearStart (year : Int) : Int := 365 * year + year / 4 - year / 100

/-- The last day of a year, counted from its first one: one more if the year ends with a leap day,
that is, if the next year of the calendar is a leap year. -/
def lastDay (year : Int) : Int := if Date.isLeap (year + 1) then 365 else 364

theorem yearOfCycle_mono {day day' : Int} (h : day ≤ day') :
    yearOfCycle day ≤ yearOfCycle day' := by
  have hquarter (day : Int) : day / 146096 = day / 36524 / 4 := by omega
  have hmono : Monotone yearOfCycle := by
    refine monotone_int_of_le_succ fun day => Int.ediv_le_ediv (by decide) ?_
    rw [hquarter, hquarter]
    omega
  exact hmono h

/-- The years of a cycle follow each other: the first and the last day of each lie in it. -/
theorem yearOfCycle_ends : ∀ year < 400,
    yearOfCycle (yearStart (year : Nat)) = year ∧
      yearOfCycle (yearStart (year : Nat) + lastDay year) = year ∧
      yearStart (year : Nat) + lastDay year + 1 =
        if year = 399 then 146097 else yearStart (year + 1 : Nat) := by
  decide +kernel

/-- A year holds the days from its first one to its last one. -/
theorem yearOfCycle_eq {year day : Int} (hyear : 0 ≤ year ∧ year < 400)
    (hday : 0 ≤ day ∧ day ≤ lastDay year) : yearOfCycle (yearStart year + day) = year := by
  obtain ⟨n, rfl⟩ := Int.eq_ofNat_of_zero_le hyear.1
  obtain ⟨hfirst, hlast, _⟩ := yearOfCycle_ends n (by omega)
  refine le_antisymm ?_ ?_
  · exact (yearOfCycle_mono (show yearStart n + day ≤ yearStart n + lastDay n by omega)).trans
      hlast.le
  · exact hfirst.ge.trans (yearOfCycle_mono (by omega))

/-- A day of a cycle lies in its year. -/
theorem yearOfCycle_holds {day : Int} (hday : 0 ≤ day ∧ day < 146097) :
    (0 ≤ yearOfCycle day ∧ yearOfCycle day < 400) ∧ yearStart (yearOfCycle day) ≤ day ∧
      day ≤ yearStart (yearOfCycle day) + lastDay (yearOfCycle day) := by
  have hlow : 0 ≤ yearOfCycle day := yearOfCycle_mono hday.1
  have hhigh : yearOfCycle day ≤ 399 :=
    yearOfCycle_mono (show day ≤ 146096 by omega)
  obtain ⟨year, hyear⟩ := Int.eq_ofNat_of_zero_le hlow
  rw [hyear] at hhigh ⊢
  refine ⟨by omega, ?_, ?_⟩
  · -- a day before the first one of the year would lie in the year before
    by_contra hbefore
    obtain _ | last := year
    · exact hbefore hday.1
    obtain ⟨_, hlast, hnext⟩ := yearOfCycle_ends last (by omega)
    rw [if_neg (by omega)] at hnext
    have hle := yearOfCycle_mono (show day ≤ yearStart last + lastDay last by omega)
    omega
  · -- a day after the last one would lie in the year after
    by_contra hafter
    obtain ⟨_, _, hnext⟩ := yearOfCycle_ends year (by omega)
    split at hnext
    · omega
    · obtain ⟨hfirst, _, _⟩ := yearOfCycle_ends (year + 1) (by omega)
      have hle := yearOfCycle_mono (show yearStart (year + 1 : Nat) ≤ day by omega)
      omega

/-! ## Months counted from March -/

/-- The month of a day of a year that starts in March, counted from zero. -/
def marchMonth (day : Int) : Int := (5 * day + 2) / 153

/-- The days of such a year before one of its months. -/
def monthStart (march : Int) : Int := (153 * march + 2) / 5

/-- The month of the calendar for a day of such a year. -/
def monthOfDay (day : Int) : Int :=
  if marchMonth day < 10 then marchMonth day + 3 else marchMonth day - 9

theorem marchMonth_bounds {day : Int} (hday : 0 ≤ day ∧ day ≤ 365) :
    (0 ≤ marchMonth day ∧ marchMonth day ≤ 11) ∧ monthStart (marchMonth day) ≤ day := by
  unfold monthStart marchMonth
  omega

theorem monthOfDay_bounds {day : Int} (hday : 0 ≤ day ∧ day ≤ 365) :
    1 ≤ monthOfDay day ∧ monthOfDay day ≤ 12 := by
  have hmarch := marchMonth_bounds hday
  unfold monthOfDay
  split <;> omega

/-- The date for a day of a year of a cycle, all counted from zero and the years from March. -/
def dateOf (cycle year day : Int) : Date where
  year := year + cycle * 400 + (if monthOfDay day ≤ 2 then 1 else 0)
  month := (monthOfDay day).toNat
  day := (day - monthStart (marchMonth day) + 1).toNat

theorem Date.ofEpochDays_eq (days : Int) :
    ofEpochDays days =
      dateOf ((days + 719468) / 146097) (yearOfCycle ((days + 719468) % 146097))
        ((days + 719468) % 146097 - yearStart (yearOfCycle ((days + 719468) % 146097))) :=
  rfl

theorem Date.toEpochDays_eq (d : Date) {year march : Int}
    (hyear : year = if d.month ≤ 2 then d.year - 1 else d.year)
    (hmarch : march = ((d.month : Int) + 9) % 12) :
    d.toEpochDays =
      year / 400 * 146097 + (yearStart (year % 400) + (monthStart march + d.day - 1)) - 719468 := by
  subst hyear hmarch
  unfold toEpochDays yearStart monthStart
  dsimp only
  omega

theorem Date.isValid_iff {d : Date} :
    d.isValid = true ↔
      1 ≤ d.month ∧ d.month ≤ 12 ∧ 1 ≤ d.day ∧ d.day ≤ daysInMonth d.year d.month := by
  simp [isValid, and_assoc]

theorem Date.daysInMonth_february (year : Int) :
    daysInMonth year 2 = if isLeap year then 29 else 28 :=
  rfl

/-! ## Days of cycles -/

/-- A day by its cycle of 400 years, the year in the cycle and its place in the year. Years start in
March. -/
structure CycleDay where
  cycle : Int
  year : Int
  day : Int
  year_bounds : 0 ≤ year ∧ year < 400
  day_bounds : 0 ≤ day ∧ day ≤ lastDay year

namespace CycleDay

variable (c : CycleDay)

/-- The days from 1970-01-01. -/
def epochDays : Int := c.cycle * 146097 + (yearStart c.year + c.day) - 719468

/-- The date of the calendar. -/
def date : Date := dateOf c.cycle c.year c.day

theorem day_le : 0 ≤ c.day ∧ c.day ≤ 365 := by
  have hday := c.day_bounds
  unfold lastDay at hday
  split at hday <;> omega

theorem month_date : (c.date.month : Int) = monthOfDay c.day := by
  have hmonth := monthOfDay_bounds c.day_le
  exact Int.toNat_of_nonneg (by omega)

theorem day_date : (c.date.day : Int) = c.day - monthStart (marchMonth c.day) + 1 := by
  have hmarch := marchMonth_bounds c.day_le
  exact Int.toNat_of_nonneg (by omega)

theorem year_date :
    c.date.year = c.year + c.cycle * 400 + (if monthOfDay c.day ≤ 2 then 1 else 0) := rfl

theorem dayOfCycle_bounds : 0 ≤ yearStart c.year + c.day ∧ yearStart c.year + c.day < 146097 := by
  have hyear := c.year_bounds
  have hday := c.day_le
  unfold yearStart
  omega

/-- Every count of days is that of a day of a cycle. -/
theorem exists_epochDays_eq (days : Int) : ∃ c : CycleDay, c.epochDays = days := by
  have hday : 0 ≤ (days + 719468) % 146097 ∧ (days + 719468) % 146097 < 146097 := by omega
  obtain ⟨hyear, hfirst, hlast⟩ := yearOfCycle_holds hday
  exact ⟨⟨(days + 719468) / 146097, yearOfCycle ((days + 719468) % 146097),
    (days + 719468) % 146097 - yearStart (yearOfCycle ((days + 719468) % 146097)), hyear,
    by omega⟩, by simp only [epochDays]; omega⟩

theorem ofEpochDays_epochDays : Date.ofEpochDays c.epochDays = c.date := by
  have hbounds := c.dayOfCycle_bounds
  have hcycle : (c.epochDays + 719468) / 146097 = c.cycle := by
    unfold epochDays
    omega
  have hday : (c.epochDays + 719468) % 146097 = yearStart c.year + c.day := by
    unfold epochDays
    omega
  have hrest : yearStart c.year + c.day - yearStart c.year = c.day := by omega
  rw [Date.ofEpochDays_eq, hcycle, hday, yearOfCycle_eq c.year_bounds c.day_bounds, hrest, date]

theorem toEpochDays_date : c.date.toEpochDays = c.epochDays := by
  have hyear := c.year_bounds
  have hmarch : ((c.date.month : Int) + 9) % 12 = marchMonth c.day := by
    have hbounds := marchMonth_bounds c.day_le
    rw [c.month_date, monthOfDay]
    split <;> omega
  have hnext : (if c.date.month ≤ 2 then c.date.year - 1 else c.date.year) =
      c.year + c.cycle * 400 := by
    have hmonth := c.month_date
    rw [c.year_date]
    split <;> split <;> omega
  have hcycle : (c.year + c.cycle * 400) / 400 = c.cycle := by omega
  have hrest : (c.year + c.cycle * 400) % 400 = c.year := by omega
  rw [Date.toEpochDays_eq c.date hnext.symm hmarch.symm, hcycle, hrest, c.day_date, epochDays]
  omega

/-- The leap years of all cycles are the same ones. -/
theorem isLeap_add_cycle (year cycle : Int) :
    Date.isLeap (year + cycle * 400) = Date.isLeap year := by
  have h4 : (year + cycle * 400) % 4 = year % 4 := by omega
  have h100 : (year + cycle * 400) % 100 = year % 100 := by omega
  have h400 : (year + cycle * 400) % 400 = year % 400 := by omega
  rw [Date.isLeap, Date.isLeap, h4, h100, h400]

/-- A year without a leap day ends a day earlier. -/
theorem day_le_of_not_isLeap (h : Date.isLeap (c.year + 1) = false) : c.day ≤ 364 := by
  have hday := c.day_bounds.2
  rwa [lastDay, h] at hday

theorem isValid_date : c.date.isValid = true := by
  have hday := c.day_le
  have hmonths := monthOfDay_bounds hday
  have hmarch := marchMonth_bounds hday
  have hmonth := c.month_date
  have hdate := c.day_date
  have hyear := c.year_date
  rw [Date.isValid_iff]
  refine ⟨by omega, by omega, by omega, ?_⟩
  have hlength := hmarch.2
  unfold monthOfDay monthStart marchMonth at *
  by_cases hfebruary : c.date.month = 2
  · rw [if_pos (by omega), ← Int.add_right_comm] at hyear
    have hleap := c.day_le_of_not_isLeap
    rw [hyear, hfebruary, Date.daysInMonth_february, isLeap_add_cycle]
    cases hcase : Date.isLeap (c.year + 1) with
    | false =>
      have := hleap hcase
      simp only [Bool.false_eq_true, if_false]
      split at hmonth <;> omega
    | true =>
      simp only [if_true]
      split at hmonth <;> omega
  · rw [Date.daysInMonth, if_neg hfebruary]
    split <;> split at hmonth <;> omega

/-- The days of a month lie in it, counted from March. -/
theorem marchMonth_monthStart {d : Date} (h : d.isValid = true) {march : Int}
    (hmarch : march = ((d.month : Int) + 9) % 12) :
    marchMonth (monthStart march + d.day - 1) = march := by
  obtain ⟨hlow, hhigh, hday, hlength⟩ := Date.isValid_iff.1 h
  have hmonths : d.day ≤ 31 ∧ (d.month = 2 → d.day ≤ 29) ∧
      (d.month = 4 ∨ d.month = 6 ∨ d.month = 9 ∨ d.month = 11 → d.day ≤ 30) := by
    unfold Date.daysInMonth at hlength
    split at hlength
    · split at hlength <;> omega
    · split at hlength <;> omega
  obtain ⟨_, month, _⟩ := d
  dsimp only at *
  unfold marchMonth monthStart
  interval_cases month <;> omega

/-- Every date of the calendar is that of a day of a cycle. -/
theorem exists_date_eq {d : Date} (h : d.isValid = true) : ∃ c : CycleDay, c.date = d := by
  obtain ⟨hlow, hhigh, hfirst, hlength⟩ := Date.isValid_iff.1 h
  obtain ⟨march, hmarch⟩ : ∃ march, march = ((d.month : Int) + 9) % 12 := ⟨_, rfl⟩
  obtain ⟨year, hyear⟩ : ∃ year, year = if d.month ≤ 2 then d.year - 1 else d.year := ⟨_, rfl⟩
  have hmonth := marchMonth_monthStart h hmarch
  have hstart : 0 ≤ monthStart march := by
    unfold monthStart
    omega
  have hlast : monthStart march + d.day - 1 ≤ lastDay (year % 400) := by
    have hleap : Date.isLeap (year % 400 + 1) = Date.isLeap (year + 1) := by
      have hcycle : year % 400 + 1 + year / 400 * 400 = year + 1 := by omega
      rw [← hcycle, isLeap_add_cycle]
    unfold monthStart lastDay
    rw [hleap]
    by_cases hfebruary : d.month = 2
    · have hnext : year + 1 = d.year := by
        rw [if_pos (by omega)] at hyear
        omega
      rw [hfebruary, Date.daysInMonth_february] at hlength
      rw [hnext]
      split at hlength <;> split <;> omega
    · have hlong : d.day ≤ 31 := by
        rw [Date.daysInMonth, if_neg hfebruary] at hlength
        split at hlength <;> omega
      have hearly : march ≤ 10 := by omega
      split <;> omega
  refine ⟨⟨year / 400, year % 400, monthStart march + d.day - 1, by omega, by omega, hlast⟩, ?_⟩
  have hcalendar : monthOfDay (monthStart march + d.day - 1) = d.month := by
    rw [monthOfDay, hmonth]
    split <;> omega
  have hnext : year % 400 + year / 400 * 400 = year := by omega
  simp only [date, dateOf, hmonth, hcalendar, hnext]
  cases d
  simp only [Date.mk.injEq]
  refine ⟨?_, by omega, by omega⟩
  dsimp only at hyear
  split at hyear <;> split <;> omega

end CycleDay

namespace Date

/-- A count of days is that of its date. -/
theorem toEpochDays_ofEpochDays (days : Int) : (ofEpochDays days).toEpochDays = days := by
  obtain ⟨c, rfl⟩ := CycleDay.exists_epochDays_eq days
  rw [c.ofEpochDays_epochDays, c.toEpochDays_date]

/-- A date of the calendar is that of its count of days. -/
theorem ofEpochDays_toEpochDays {d : Date} (h : d.isValid = true) :
    ofEpochDays d.toEpochDays = d := by
  obtain ⟨c, rfl⟩ := CycleDay.exists_date_eq h
  rw [c.toEpochDays_date, c.ofEpochDays_epochDays]

/-- Every count of days is that of a date of the calendar. -/
theorem isValid_ofEpochDays (days : Int) : (ofEpochDays days).isValid = true := by
  obtain ⟨c, rfl⟩ := CycleDay.exists_epochDays_eq days
  rw [c.ofEpochDays_epochDays]
  exact c.isValid_date

/-- The first day of the years that have an ISO text. -/
def firstDay : Int := toEpochDays ⟨-262143, 1, 1⟩

/-- The last day of the years that have an ISO text. -/
def finalDay : Int := toEpochDays ⟨262142, 12, 31⟩

/-- The days whose years have an ISO text. -/
theorem inRange_ofEpochDays_iff (days : Int) :
    (ofEpochDays days).inRange = true ↔ firstDay ≤ days ∧ days ≤ finalDay := by
  obtain ⟨c, rfl⟩ := CycleDay.exists_epochDays_eq days
  have hfirst : firstDay = -96465292 := by decide
  have hfinal : finalDay = 95026236 := by decide
  have hyear := c.year_bounds
  have hday := c.day_le
  have hmonth : monthOfDay c.day ≤ 2 ↔ 306 ≤ c.day := by
    unfold monthOfDay marchMonth
    split <;> omega
  rw [c.ofEpochDays_epochDays, hfirst, hfinal]
  simp only [inRange, Bool.and_eq_true, decide_eq_true_eq, c.year_date, CycleDay.epochDays, hmonth,
    yearStart]
  -- the bounds fall into one year each, and other years lie well on one side of them
  have hlow := Int.lt_trichotomy (c.year + c.cycle * 400) (-262144)
  have hhigh := Int.lt_trichotomy (c.year + c.cycle * 400) 262142
  split
  · refine and_congr ?_ ?_
    · rcases hlow with hlow | hlow | hlow <;> omega
    · rcases hhigh with hhigh | hhigh | hhigh <;> omega
  · refine and_congr ?_ ?_
    · rcases hlow with hlow | hlow | hlow <;> omega
    · rcases hhigh with hhigh | hhigh | hhigh <;> omega

end Date

end ParamQuery
