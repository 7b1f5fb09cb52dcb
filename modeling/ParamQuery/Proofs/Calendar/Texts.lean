import ParamQuery.Proofs.Calendar.Dates
import ParamQuery.Proofs.Numerals

/-!
# Texts of dates and times

The ISO texts tell dates, times of day and instants apart: a text belongs to one of them at most. An
instant has a text if its day lies in one of the years that have one, and this is the text of its
date in the calendar and of its time of day.

## Main definitions

* `IsInstant` — a text is that of an instant.

## Main statements

* `isoDate_inj`, `isoClock_inj` — texts tell dates and times of day apart.
* `IsInstant.unique` — a text is that of one instant at most.
* `isoInstant?_eq_some_iff`, `isoInstant?_eq_none_iff` — the text of an instant, and when there is
  one.
* `isoDay?_eq_none_iff`, `eq_of_isoDay?_eq` — the same for days.
-/

namespace ParamQuery

open Text

/-! ## Dates -/

/-- The text of a year has a sign in front, or four digits that tell it. -/
theorem isoYear_inj {year year' : Int} (h : isoYear year = isoYear year') : year = year' := by
  have hsign {year : Int} {n m : Nat} :
      padded 4 n ≠ (if year < 0 then '-' else '+') :: padded 4 m := by
    have hdigit : (if year < 0 then '-' else '+').isDigit = false := by split <;> decide
    exact fun heq => notMem_padded hdigit 4 n (heq ▸ List.mem_cons_self)
  unfold isoYear at h
  by_cases hplain : 0 ≤ year ∧ year ≤ 9999
  · by_cases hplain' : 0 ≤ year' ∧ year' ≤ 9999
    · rw [if_pos hplain, if_pos hplain'] at h
      have := padded_inj h
      omega
    · rw [if_pos hplain, if_neg hplain'] at h
      exact absurd h hsign
  · by_cases hplain' : 0 ≤ year' ∧ year' ≤ 9999
    · rw [if_neg hplain, if_pos hplain'] at h
      exact absurd h.symm hsign
    · rw [if_neg hplain, if_neg hplain', List.cons.injEq] at h
      have hsize := padded_inj h.2
      by_cases hnegative : year < 0
      · by_cases hnegative' : year' < 0
        · omega
        · simp [hnegative, hnegative'] at h
      · by_cases hnegative' : year' < 0
        · simp [hnegative, hnegative'] at h
        · omega

theorem mem_isoYear {c : Char} {year : Int} (h : c ∈ isoYear year) :
    c.isDigit = true ∨ c = '-' ∨ c = '+' := by
  unfold isoYear at h
  split at h
  · exact .inl ((digits_padded _ _).isDigit c h)
  · rcases List.mem_cons.1 h with rfl | h
    · split <;> simp
    · exact .inl ((digits_padded _ _).isDigit c h)

/-- The month and the day of a date have two digits. -/
def Date.IsShort (d : Date) : Prop := d.month < 100 ∧ d.day < 100

theorem Date.isShort_of_isValid {d : Date} (h : d.isValid = true) : d.IsShort := by
  obtain ⟨_, hmonth, _, hday⟩ := isValid_iff.1 h
  refine ⟨by omega, ?_⟩
  unfold daysInMonth at hday
  split at hday <;> split at hday <;> omega

/-- Texts tell dates apart. -/
theorem isoDate_inj {d d' : Date} (hd : d.IsShort) (hd' : d'.IsShort)
    (h : isoDate d = isoDate d') : d = d' := by
  have htail {m n m' n' : Nat} (hm : m < 100) (hn : n < 100) (hm' : m' < 100) (hn' : n' < 100) :
      ('-' :: padded 2 m ++ '-' :: padded 2 n).length =
        ('-' :: padded 2 m' ++ '-' :: padded 2 n').length := by
    simp [length_padded, hm, hn, hm', hn']
  unfold isoDate at h
  rw [List.append_assoc, List.append_assoc] at h
  obtain ⟨hyear, hrest⟩ := List.append_inj' h (htail hd.1 hd.2 hd'.1 hd'.2)
  rw [List.cons_append, List.cons_append, List.cons.injEq,
    append_cons_inj (notMem_padded rfl 2 _) (notMem_padded rfl 2 _)] at hrest
  obtain ⟨year, month, day⟩ := d
  obtain ⟨year', month', day'⟩ := d'
  rw [Date.mk.injEq]
  exact ⟨isoYear_inj hyear, padded_inj hrest.2.1, padded_inj hrest.2.2⟩

theorem notMem_isoDate (d : Date) : 'T' ∉ isoDate d := by
  intro h
  rw [isoDate, List.append_assoc, List.mem_append, List.cons_append, List.mem_cons, List.mem_append,
    List.mem_cons] at h
  rcases h with h | h | h | h | h
  · have := mem_isoYear h
    revert this
    decide
  · exact absurd h (by decide)
  · exact notMem_padded rfl _ _ h
  · exact absurd h (by decide)
  · exact notMem_padded rfl _ _ h

/-! ## Times of day -/

theorem length_clock {micros : Nat} (h : micros < microsPerDay) : (clock micros).length = 8 := by
  have hhour : micros / 1000000 / 3600 < 10 ^ 2 := by
    unfold microsPerDay at h
    omega
  have hminute : micros / 1000000 / 60 % 60 < 10 ^ 2 := by omega
  have hsecond : micros / 1000000 % 60 < 10 ^ 2 := by omega
  simp only [clock, List.length_append, List.length_cons, length_padded Nat.two_pos hhour,
    length_padded Nat.two_pos hminute, length_padded Nat.two_pos hsecond]

/-- Hours, minutes and seconds tell the second. -/
theorem clock_inj {micros micros' : Nat} (h : clock micros = clock micros') :
    micros / 1000000 = micros' / 1000000 := by
  have hcolon (n : Nat) : ':' ∉ padded 2 n := notMem_padded rfl 2 n
  simp only [clock, List.append_assoc, List.cons_append,
    append_cons_inj (hcolon _) (hcolon _)] at h
  have hhour := padded_inj h.1
  have hminute := padded_inj h.2.1
  have hsecond := padded_inj h.2.2
  omega

/-- The digits of a fraction of a second, after a point. -/
theorem fraction_inj {part part' : Nat} (h : part < 1000000) (h' : part' < 1000000)
    (heq : (if part = 0 then [] else if part % 1000 = 0 then '.' :: padded 3 (part / 1000)
        else '.' :: padded 6 part) =
      if part' = 0 then [] else if part' % 1000 = 0 then '.' :: padded 3 (part' / 1000)
        else '.' :: padded 6 part') : part = part' := by
  have hshort {part : Nat} (h : part < 1000000) : (padded 3 (part / 1000)).length = 3 :=
    length_padded (by decide) (show part / 1000 < 1000 by omega)
  have hlong {part : Nat} (h : part < 1000000) : (padded 6 part).length = 6 :=
    length_padded (by decide) h
  -- the number of digits tells which of the three forms a fraction has
  split at heq
  · split at heq
    · omega
    · split at heq <;> cases heq
  · split at heq
    · split at heq
      · cases heq
      · split at heq
        · have := padded_inj (List.cons.inj heq).2
          omega
        · have := congrArg List.length heq
          simp [hshort h, hlong h'] at this
    · split at heq
      · cases heq
      · split at heq
        · have := congrArg List.length heq
          simp [hlong h, hshort h'] at this
        · exact padded_inj (List.cons.inj heq).2

/-- Texts tell times of day apart. -/
theorem isoClock_inj {micros micros' : Nat} (h : micros < microsPerDay)
    (h' : micros' < microsPerDay) (hclock : isoClock micros = isoClock micros') :
    micros = micros' := by
  obtain ⟨hseconds, hfraction⟩ := List.append_inj hclock (by rw [length_clock h, length_clock h'])
  have hsecond := clock_inj hseconds
  have hpart : micros % 1000000 = micros' % 1000000 :=
    fraction_inj (by omega) (by omega) hfraction
  omega

/-! ## Instants -/

/-- A text is that of an instant: the text of a date of the calendar and that of a time of day,
where the instant lies that many days after the start of 1970, and that many microseconds. -/
def IsInstant (text : List Char) (micros : Int) : Prop :=
  ∃ (date : Date) (clock : Nat), date.isValid = true ∧ clock < microsPerDay ∧
    micros = date.toEpochDays * microsPerDay + clock ∧
    text = isoDate date ++ 'T' :: isoClock clock ++ ['Z']

/-- The first instant of the years that have an ISO text. -/
def firstInstant : Int := Date.firstDay * microsPerDay

/-- The last instant of the years that have an ISO text. -/
def finalInstant : Int := Date.finalDay * microsPerDay + (microsPerDay - 1)

/-- A text is that of one instant at most. -/
theorem IsInstant.unique {text : List Char} {micros micros' : Int} (h : IsInstant text micros)
    (h' : IsInstant text micros') : micros = micros' := by
  obtain ⟨date, clock, hdate, hclock, rfl, htext⟩ := h
  obtain ⟨date', clock', hdate', hclock', rfl, htext'⟩ := h'
  rw [htext, List.append_cancel_right_eq,
    append_cons_inj (notMem_isoDate date) (notMem_isoDate date')] at htext'
  rw [isoDate_inj (Date.isShort_of_isValid hdate) (Date.isShort_of_isValid hdate') htext'.1,
    isoClock_inj hclock hclock' htext'.2]

/-- An instant has one text at most. -/
theorem IsInstant.text_unique {text text' : List Char} {micros : Int} (h : IsInstant text micros)
    (h' : IsInstant text' micros) : text = text' := by
  obtain ⟨date, clock, hdate, hclock, hmicros, rfl⟩ := h
  obtain ⟨date', clock', hdate', hclock', hmicros', rfl⟩ := h'
  have hpositive : (microsPerDay : Int) = 86400000000 := rfl
  rw [hpositive] at hmicros hmicros'
  unfold microsPerDay at hclock hclock'
  have hday : date.toEpochDays = date'.toEpochDays := by omega
  have hsame : date = date' := by
    rw [← Date.ofEpochDays_toEpochDays hdate, hday, Date.ofEpochDays_toEpochDays hdate']
  have htime : clock = clock' := by omega
  rw [hsame, htime]

/-- Every instant has a text, were it not for the bounds of the years. -/
theorem isInstant_ofEpochDays (micros : Int) :
    IsInstant (isoDate (Date.ofEpochDays (micros / microsPerDay)) ++
      'T' :: isoClock (micros % microsPerDay).toNat ++ ['Z']) micros := by
  refine ⟨Date.ofEpochDays (micros / microsPerDay), (micros % microsPerDay).toNat,
    Date.isValid_ofEpochDays _, ?_, ?_, rfl⟩
  · unfold microsPerDay
    omega
  · rw [Date.toEpochDays_ofEpochDays]
    unfold microsPerDay
    omega

theorem inRange_ofEpochDays_div_iff (micros : Int) :
    (Date.ofEpochDays (micros / microsPerDay)).inRange = true ↔
      firstInstant ≤ micros ∧ micros ≤ finalInstant := by
  rw [Date.inRange_ofEpochDays_iff, firstInstant, finalInstant]
  unfold microsPerDay
  omega

/-- The text of an instant of the years that have one. -/
theorem isoInstant?_eq_some_iff {micros : Int} {text : List Char} :
    isoInstant? micros = some text ↔
      (firstInstant ≤ micros ∧ micros ≤ finalInstant) ∧ IsInstant text micros := by
  rw [← inRange_ofEpochDays_div_iff, isoInstant?]
  split
  · next hrange =>
    rw [Option.some.injEq]
    constructor
    · rintro rfl
      exact ⟨hrange, isInstant_ofEpochDays micros⟩
    · rintro ⟨_, htext⟩
      exact (isInstant_ofEpochDays micros).text_unique htext
  · next hrange => simp [hrange]

theorem isoInstant?_eq_none_iff {micros : Int} :
    isoInstant? micros = none ↔ ¬ (firstInstant ≤ micros ∧ micros ≤ finalInstant) := by
  rw [← inRange_ofEpochDays_div_iff, isoInstant?]
  split
  · next hrange => simp [hrange]
  · next hrange => simp [hrange]

/-! ## Days -/

theorem isoDay?_eq_none_iff {days : Int} :
    isoDay? days = none ↔ ¬ (Date.firstDay ≤ days ∧ days ≤ Date.finalDay) := by
  rw [← Date.inRange_ofEpochDays_iff, isoDay?]
  split
  · next hrange => simp [hrange]
  · next hrange => simp [hrange]

/-- Texts tell days apart. -/
theorem eq_of_isoDay?_eq {days days' : Int} {text : List Char} (h : isoDay? days = some text)
    (h' : isoDay? days' = some text) : days = days' := by
  have hdate {days : Int} (h : isoDay? days = some text) :
      isoDate (Date.ofEpochDays days) = text := by
    unfold isoDay? at h
    dsimp only at h
    split at h
    · exact Option.some.inj h
    · cases h
  have hshort (days : Int) := Date.isShort_of_isValid (Date.isValid_ofEpochDays days)
  have hsame := isoDate_inj (hshort days) (hshort days') ((hdate h).trans (hdate h').symm)
  rw [← Date.toEpochDays_ofEpochDays days, hsame, Date.toEpochDays_ofEpochDays]

end ParamQuery
