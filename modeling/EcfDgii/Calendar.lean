import Mathlib.Data.Int.Notation
import Mathlib.Data.Nat.Notation

/-!
The proleptic Gregorian calendar, as a count of days.

Days are counted from 1970-01-01.  Both directions count a year from the first
of March, so that the leap day comes last and the months before it have the
same lengths in every year; 719468 is the number of days from 0000-03-01 to
1970-01-01, and 146097 the length of the four hundred years after which the
calendar repeats.  `daysFromCivil_civilFromDays` says the two are inverse on
every day from 1970 on.
-/

set_option autoImplicit false

namespace EcfDgii.Calendar

/-- A civil date. -/
structure CivilDate where
  year : ℕ
  month : ℕ
  day : ℕ
  deriving DecidableEq

/-- `daysInMonth` of `EcfValidator.cpp`; 0 for a month there is not. -/
def daysInMonth (month year : ℕ) : ℕ :=
  if month ∈ [1, 3, 5, 7, 8, 10, 12] then 31
  else if month ∈ [4, 6, 9, 11] then 30
  else if month = 2 then
    if (year % 4 = 0 ∧ year % 100 ≠ 0) ∨ year % 400 = 0 then 29 else 28
  else 0

theorem daysInMonth_le (month year : ℕ) : daysInMonth month year ≤ 31 := by
  unfold daysInMonth
  split
  · decide
  · split
    · decide
    · split
      · split <;> decide
      · decide

/-- The days before a day of the year that begins in March, `month` counted
from March. -/
def dayOfYear (month day : ℕ) : ℕ := (153 * month + 2) / 5 + day

/-- The days before a year, in a four-hundred-year era. -/
def dayOfEra (year dayInYear : ℕ) : ℕ := 365 * year + year / 4 - year / 100 + dayInYear

/-- The day number of a date, any day of month allowed (`timegm` carries a day
past the end of the month into the next). -/
def daysFromCivil (date : CivilDate) : ℕ :=
  let year := if date.month ≤ 2 then date.year - 1 else date.year
  let month := if date.month ≤ 2 then date.month + 9 else date.month - 3
  146097 * (year / 400) + dayOfEra (year % 400) (dayOfYear month (date.day - 1)) - 719468

/-- The days from 1970-01-01 to the first of a month, months counted from January
of the year 0. -/
def firstOfMonth (months : ℤ) : ℤ :=
  let year := if months % 12 < 2 then months / 12 - 1 else months / 12
  let month := if months % 12 < 2 then months % 12 + 10 else months % 12 - 2
  146097 * (year / 400) + dayOfEra (year % 400).toNat (dayOfYear month.toNat 0) - 719468

/-- The year of an era in which a day falls: whole centuries, whole four-year
cycles and whole years, the last of each kind holding one day more. -/
def yearOfEra (day : ℕ) : ℕ :=
  let century := min 3 (day / 36524)
  let inCentury := day - 36524 * century
  let cycle := inCentury / 1461
  100 * century + 4 * cycle + min 3 ((inCentury - 1461 * cycle) / 365)

/-- The date of a day number. -/
def civilFromDays (days : ℕ) : CivilDate :=
  let shifted := days + 719468
  let day := shifted % 146097
  let year := yearOfEra day
  let inYear := day - dayOfEra year 0
  let month := (5 * inYear + 2) / 153
  { year := 400 * (shifted / 146097) + year + if 10 ≤ month then 1 else 0
    month := if 10 ≤ month then month - 9 else month + 3
    day := inYear - dayOfYear month 0 + 1 }

theorem yearOfEra_lt {day : ℕ} (h : day < 146097) : yearOfEra day < 400 := by
  simp only [yearOfEra]
  omega

/-- A day of the era lies in the year computed for it. -/
theorem dayOfEra_yearOfEra {day : ℕ} (h : day < 146097) :
    dayOfEra (yearOfEra day) 0 ≤ day ∧ day ≤ dayOfEra (yearOfEra day) 365 := by
  obtain ⟨century, hc⟩ : ∃ c, c = min 3 (day / 36524) := ⟨_, rfl⟩
  obtain ⟨inCentury, hr⟩ : ∃ r, r = day - 36524 * century := ⟨_, rfl⟩
  obtain ⟨cycle, hq⟩ : ∃ q, q = inCentury / 1461 := ⟨_, rfl⟩
  obtain ⟨inCycle, hs⟩ : ∃ s, s = inCentury - 1461 * cycle := ⟨_, rfl⟩
  obtain ⟨single, hy⟩ : ∃ y, y = min 3 (inCycle / 365) := ⟨_, rfl⟩
  have year : yearOfEra day = 100 * century + (4 * cycle + single) := by
    simp only [yearOfEra, ← hc, ← hr, ← hq, ← hs, ← hy, Nat.add_assoc]
  have inCentury_le : day = 36524 * century + inCentury ∧ inCentury ≤ 36524 := by omega
  have inCycle_le : inCentury = 1461 * cycle + inCycle ∧ inCycle ≤ 1460 ∧ cycle ≤ 24 := by omega
  have rest : 365 * single ≤ inCycle ∧ inCycle ≤ 365 * single + 365 ∧ single ≤ 3 := by omega
  clear hc hr hq hs hy
  have fours : (100 * century + (4 * cycle + single)) / 4 = 25 * century + cycle := by omega
  have hundreds : (100 * century + (4 * cycle + single)) / 100 = century := by omega
  have start : dayOfEra (yearOfEra day) 0 = 36524 * century + 1461 * cycle + 365 * single := by
    rw [year, dayOfEra, fours, hundreds]
    omega
  have finish : dayOfEra (yearOfEra day) 365 = dayOfEra (yearOfEra day) 0 + 365 := rfl
  rw [finish, start]
  omega

theorem month_of_day {inYear : ℕ} (h : inYear ≤ 365) :
    (5 * inYear + 2) / 153 ≤ 11 ∧ dayOfYear ((5 * inYear + 2) / 153) 0 ≤ inYear ∧
      inYear ≤ dayOfYear ((5 * inYear + 2) / 153) 30 := by
  unfold dayOfYear
  omega

/-- Everything the proofs below need to know of the date of a day. -/
theorem civilFromDays_spec (days : ℕ) :
    ∃ era year inYear month : ℕ, days + 719468 = 146097 * era + dayOfEra year inYear ∧
      year < 400 ∧ inYear ≤ 365 ∧ month ≤ 11 ∧ dayOfYear month 0 ≤ inYear ∧
      inYear ≤ dayOfYear month 30 ∧
      civilFromDays days =
        { year := 400 * era + year + if 10 ≤ month then 1 else 0
          month := if 10 ≤ month then month - 9 else month + 3
          day := inYear - dayOfYear month 0 + 1 } := by
  have day := Nat.mod_lt (days + 719468) (show 146097 > 0 by omega)
  have range := dayOfEra_yearOfEra day
  have inYear : (days + 719468) % 146097 - dayOfEra (yearOfEra ((days + 719468) % 146097)) 0 ≤
      365 := by
    simp only [dayOfEra] at range ⊢
    omega
  obtain ⟨month, low, high⟩ := month_of_day inYear
  refine ⟨_, _, _, _, ?_, yearOfEra_lt day, inYear, month, low, high, rfl⟩
  have split := Nat.div_add_mod (days + 719468) 146097
  simp only [dayOfEra] at range ⊢
  omega

/-- The date of a day number has that day number. -/
theorem daysFromCivil_civilFromDays (days : ℕ) : daysFromCivil (civilFromDays days) = days := by
  obtain ⟨era, year, inYear, month, eq, hyear, hinYear, hmonth, low, high, date⟩ :=
    civilFromDays_spec days
  have day : dayOfYear month (inYear - dayOfYear month 0 + 1 - 1) = inYear := by
    simp only [dayOfYear] at low ⊢
    omega
  have quotient : (400 * era + year) / 400 = era := by omega
  have remainder : (400 * era + year) % 400 = year := by omega
  rw [date]
  unfold daysFromCivil
  by_cases late : 10 ≤ month
  · have first : month - 9 ≤ 2 := by omega
    have march : month - 9 + 9 = month := by omega
    have back : 400 * era + year + 1 - 1 = 400 * era + year := rfl
    simp only [late, first, march, back, ↓reduceIte, day, quotient, remainder, ← eq]
    omega
  · have first : ¬ month + 3 ≤ 2 := by omega
    have march : month + 3 - 3 = month := rfl
    simp only [late, first, march, ↓reduceIte, Nat.add_zero, day, quotient, remainder, ← eq]
    omega

/-- Dates from 1970 on have a month and a day of a calendar. -/
theorem civilFromDays_range (days : ℕ) :
    1970 ≤ (civilFromDays days).year ∧ 1 ≤ (civilFromDays days).month ∧
      (civilFromDays days).month ≤ 12 ∧ 1 ≤ (civilFromDays days).day ∧
      (civilFromDays days).day ≤ 31 := by
  obtain ⟨era, year, inYear, month, eq, hyear, hinYear, hmonth, low, high, date⟩ :=
    civilFromDays_spec days
  rw [date]
  simp only [dayOfEra, dayOfYear] at eq low high ⊢
  by_cases late : 10 ≤ month
  · simp only [late, ↓reduceIte]
    omega
  · simp only [late, ↓reduceIte]
    omega

/-- The first of March of a year from 1969 on. -/
theorem march_late {year : ℕ} (late : 1969 ≤ year) :
    719162 + 365 * (year - 1969) ≤ 146097 * (year / 400) + dayOfEra (year % 400) 0 := by
  unfold dayOfEra
  by_cases era : 5 ≤ year / 400
  · omega
  · have current : year / 400 = 4 ∧ 369 ≤ year % 400 ∧ year % 400 < 400 := by omega
    have leaps : 92 ≤ year % 400 / 4 := by omega
    have centuries : year % 400 / 100 ≤ 3 := by omega
    omega

/-- A day of a month from 1970 on, counted from the first of the month. -/
theorem firstOfMonth_eq {year month day : ℕ} (late : 1970 ≤ year)
    (known : 1 ≤ month ∧ month ≤ 12) (first : 1 ≤ day) :
    firstOfMonth (12 * year + month - 1) + day - 1 = daysFromCivil ⟨year, month, day⟩ := by
  have quotient : (12 * year + month - 1 : ℤ) / 12 = year := by omega
  have remainder : (12 * year + month - 1 : ℤ) % 12 = month - 1 := by omega
  unfold firstOfMonth daysFromCivil
  simp only [quotient, remainder]
  by_cases winter : month ≤ 2
  · have winter' : (month - 1 : ℤ) < 2 := by omega
    have march : ((month - 1 : ℤ) + 10).toNat = month + 9 := by omega
    have era : (year - 1 : ℤ) / 400 = ((year - 1) / 400 : ℕ) := by omega
    have inEra : ((year - 1 : ℤ) % 400).toNat = (year - 1) % 400 := by omega
    have enough := march_late (show 1969 ≤ year - 1 by omega)
    rw [if_pos winter', if_pos winter', if_pos winter, if_pos winter, march, inEra, era]
    simp only [dayOfEra, dayOfYear] at enough ⊢
    omega
  · have summer : ¬ (month - 1 : ℤ) < 2 := by omega
    have march : ((month - 1 : ℤ) - 2).toNat = month - 3 := by omega
    have inEra : ((year : ℤ) % 400).toNat = year % 400 := by omega
    have enough := march_late (show 1969 ≤ year by omega)
    rw [if_neg summer, if_neg summer, if_neg winter, if_neg winter, march, inEra]
    simp only [dayOfEra, dayOfYear] at enough ⊢
    omega

/-- Dates after 1970 are a year away from its beginning. -/
theorem daysFromCivil_late {date : CivilDate} (late : 1970 < date.year)
    (known : 1 ≤ date.month ∧ date.month ≤ 12) : 365 ≤ daysFromCivil date := by
  unfold daysFromCivil
  by_cases winter : date.month ≤ 2
  · have enough := march_late (show 1969 ≤ date.year - 1 by omega)
    rw [if_pos winter, if_pos winter]
    simp only [dayOfEra, dayOfYear] at enough ⊢
    omega
  · have enough := march_late (show 1969 ≤ date.year by omega)
    rw [if_neg winter, if_neg winter]
    simp only [dayOfEra, dayOfYear] at enough ⊢
    omega

example : civilFromDays 19782 = ⟨2024, 2, 29⟩ := by decide

end EcfDgii.Calendar
