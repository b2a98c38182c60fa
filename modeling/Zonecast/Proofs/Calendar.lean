/-
The calendar read back. A day number is taken apart into whole eras of 400 years and a place within
the era: its century, its cycle of four years, its year and the day of that year, counted from
March. Every day of an era has one such place, in which only the last year of a cycle has a leap
day, and the last cycle of a century has one in the fourth century only. The rule that finds the
year of a day by corrected division finds the year of its place. So the date of a day number
exists, and its day number is the one it was made of.
-/
import Mathlib.Tactic.IntervalCases
import Zonecast.Time.Calendar

namespace Zonecast.Time

/-! ### Places within an era -/

/-- A day of an era: its century, its cycle of four years in that, the year in that, and the day of
the year that starts in March. -/
structure Place (century cycle year day : Int) : Prop where
  century_nonneg : 0 ≤ century
  century_le : century ≤ 3
  cycle_nonneg : 0 ≤ cycle
  cycle_le : cycle ≤ 24
  year_nonneg : 0 ≤ year
  year_le : year ≤ 3
  day_nonneg : 0 ≤ day
  day_le : day ≤ 365
  leap : day = 365 → year = 3 ∧ (cycle ≤ 23 ∨ century = 3)

/-- Every day of an era has a place. -/
theorem exists_place (dayOfEra : Int) (first : 0 ≤ dayOfEra) (last : dayOfEra < 146097) :
    ∃ century cycle year day, Place century cycle year day ∧
      dayOfEra = 36524 * century + 1461 * cycle + 365 * year + day := by
  let century := min 3 (dayOfEra / 36524)
  let inCentury := dayOfEra - 36524 * century
  let inCycle := inCentury % 1461
  let year := min 3 (inCycle / 365)
  refine ⟨century, inCentury / 1461, year, inCycle - 365 * year, ?_, by omega⟩
  constructor <;> omega

section Places

variable {century cycle year day dayOfEra : Int}

namespace Place

theorem year_div_four (place : Place century cycle year day) :
    (100 * century + 4 * cycle + year) / 4 = 25 * century + cycle := by
  obtain ⟨_, _, _, _, _, _, _, _, _⟩ := place
  omega

theorem year_div_hundred (place : Place century cycle year day) :
    (100 * century + 4 * cycle + year) / 100 = century := by
  obtain ⟨_, _, _, _, _, _, _, _, _⟩ := place
  omega

theorem year_div (place : Place century cycle year day) (era : Int) :
    (100 * century + 4 * cycle + year + era * 400) / 400 = era := by
  obtain ⟨_, _, _, _, _, _, _, _, _⟩ := place
  omega

theorem year_mod (place : Place century cycle year day) (era : Int) :
    (100 * century + 4 * cycle + year + era * 400) % 400 =
      100 * century + 4 * cycle + year := by
  obtain ⟨_, _, _, _, _, _, _, _, _⟩ := place
  omega

end Place

/-- The corrected division finds the year of the place. -/
theorem yearOfEra_eq (place : Place century cycle year day)
    (whole : dayOfEra = 36524 * century + 1461 * cycle + 365 * year + day) :
    (dayOfEra - dayOfEra / 1460 + dayOfEra / 36524 - dayOfEra / 146096) / 365 =
      100 * century + 4 * cycle + year := by
  obtain ⟨_, _, _, _, _, _, _, _, _⟩ := place
  -- Only the last day of an era is miscounted by the divisors; each quotient is known.
  have centuries : dayOfEra / 36524 = if dayOfEra = 146096 then 4 else century := by
    split <;> omega
  have eras : dayOfEra / 146096 = if dayOfEra = 146096 then 1 else 0 := by split <;> omega
  have beyond : (24 * century + cycle + 365 * year + day) / 1460 =
      if 24 * century + cycle + 365 * year + day < 1460 then 0 else 1 := by split <;> omega
  have cycles : dayOfEra / 1460 =
      25 * century + cycle + (24 * century + cycle + 365 * year + day) / 1460 := by omega
  rw [centuries, eras, cycles, beyond]
  split <;> split <;> omega

/-- A leap day is the last day of the year before a leap year. -/
theorem isLeapYear_of_place (place : Place century cycle year day) (last : day = 365) (era : Int) :
    isLeapYear (100 * century + 4 * cycle + year + era * 400 + 1) = true := by
  obtain ⟨rfl, either⟩ := place.leap last
  obtain ⟨_, _, _, _, _, _, _, _, _⟩ := place
  simp only [isLeapYear, Bool.and_eq_true, Bool.or_eq_true, beq_iff_eq, bne_iff_ne]
  omega

end Places

/-! ### Dates -/

/-- The date of a day of a year that starts in March. -/
def fromMarch (year day : Int) : Date :=
  let monthFromMarch := (5 * day + 2) / 153
  let month := if monthFromMarch < 10 then monthFromMarch + 3 else monthFromMarch - 9
  ⟨year + (if month ≤ 2 then 1 else 0), month.toNat,
    (day - (153 * monthFromMarch + 2) / 5 + 1).toNat⟩

section Dates

variable {year day : Int}

/-- The month and the day of a date, by where its day stands in the year. -/
theorem fromMarch_cases (year : Int) (first : 0 ≤ day) (last : day ≤ 365) :
    (∃ month : Nat, month ≤ 9 ∧ (5 * day + 2) / 153 = month ∧
        fromMarch year day = ⟨year, month + 3, (day - (153 * month + 2) / 5 + 1).toNat⟩) ∨
      ∃ month : Nat, month ≤ 1 ∧ (5 * day + 2) / 153 = month + 10 ∧
        fromMarch year day =
          ⟨year + 1, month + 1, (day - (153 * (month + 10) + 2) / 5 + 1).toNat⟩ := by
  by_cases early : (5 * day + 2) / 153 < 10
  · refine Or.inl ⟨((5 * day + 2) / 153).toNat, by omega, by omega, ?_⟩
    simp only [fromMarch, if_pos early, Date.mk.injEq]
    omega
  · refine Or.inr ⟨((5 * day + 2) / 153 - 10).toNat, by omega, by omega, ?_⟩
    simp only [fromMarch, if_neg early, Date.mk.injEq]
    omega

/-- The day number of a date, from the day of its year that starts in March. -/
theorem toDays_fromMarch (first : 0 ≤ day) (last : day ≤ 365) :
    (fromMarch year day).toDays = year / 400 * 146097 +
      (year % 400 * 365 + year % 400 / 4 - year % 400 / 100 + day) - 719468 := by
  rcases fromMarch_cases year first last with
    ⟨month, few, counted, date⟩ | ⟨month, few, counted, date⟩
  · have sinceMarch : (((month + 3 : Nat) : Int) + 9) % 12 = month := by omega
    have whole : (153 * (month : Int) + 2) / 5 +
        ((day - (153 * month + 2) / 5 + 1).toNat : Int) - 1 = day := by omega
    simp only [date, Date.toDays]
    rw [if_neg (by omega), sinceMarch, whole]
  · have sinceMarch : (((month + 1 : Nat) : Int) + 9) % 12 = month + 10 := by omega
    have whole : (153 * ((month : Int) + 10) + 2) / 5 +
        ((day - (153 * (month + 10) + 2) / 5 + 1).toNat : Int) - 1 = day := by omega
    simp only [date, Date.toDays]
    rw [if_pos (by omega), Int.add_sub_cancel, sinceMarch, whole]

/-- It exists if its year has a leap day where it is one. -/
theorem exists?_fromMarch (first : 0 ≤ day) (last : day ≤ 365)
    (leap : day = 365 → isLeapYear (year + 1) = true) : (fromMarch year day).exists? = true := by
  rcases fromMarch_cases year first last with
    ⟨month, few, counted, date⟩ | ⟨month, few, counted, date⟩
  · rw [date]
    interval_cases month <;> simp [Date.exists?, daysInMonth] <;> omega
  · rw [date]
    by_cases leapDay : day = 365
    · have january : month = 1 := by omega
      subst january leapDay
      simp [Date.exists?, daysInMonth, leap rfl]
    · interval_cases month <;> simp [Date.exists?, daysInMonth] <;> omega

end Dates

/-- A date of a day number is the date of the place of the day. -/
theorem exists_ofDays_eq (days : Int) :
    ∃ era century cycle year day, Place century cycle year day ∧
      days = era * 146097 + (36524 * century + 1461 * cycle + 365 * year + day) - 719468 ∧
      Date.ofDays days = fromMarch (100 * century + 4 * cycle + year + era * 400) day := by
  obtain ⟨century, cycle, year, day, place, whole⟩ :=
    exists_place ((days + 719468) % 146097) (Int.emod_nonneg _ (by decide))
      (Int.emod_lt_of_pos _ (by decide))
  refine ⟨(days + 719468) / 146097, century, cycle, year, day, place, by omega, ?_⟩
  have found := yearOfEra_eq place whole
  have rest : (days + 719468) % 146097 - (365 * (100 * century + 4 * cycle + year) +
      (100 * century + 4 * cycle + year) / 4 - (100 * century + 4 * cycle + year) / 100) = day := by
    rw [place.year_div_four, place.year_div_hundred]
    omega
  simp only [Date.ofDays, found, rest, fromMarch]

namespace Date

/-- The date of a day number exists. -/
theorem exists?_ofDays (days : Int) : (ofDays days).exists? = true := by
  obtain ⟨era, century, cycle, year, day, place, _, date⟩ := exists_ofDays_eq days
  rw [date]
  exact exists?_fromMarch place.day_nonneg place.day_le fun last =>
    isLeapYear_of_place place last era

/-- Its day number is the one it was made of. -/
theorem toDays_ofDays (days : Int) : (ofDays days).toDays = days := by
  obtain ⟨era, century, cycle, year, day, place, whole, date⟩ := exists_ofDays_eq days
  rw [date, toDays_fromMarch place.day_nonneg place.day_le, place.year_div era, place.year_mod era,
    place.year_div_four, place.year_div_hundred, whole]
  omega

/-- Months have two digits. -/
theorem month_lt_of_exists? {date : Date} (real : date.exists? = true) : date.month < 100 := by
  simp only [exists?, Bool.and_eq_true, decide_eq_true_eq] at real
  omega

/-- Days have two digits. -/
theorem day_lt_of_exists? {date : Date} (real : date.exists? = true) : date.day < 100 := by
  have most : daysInMonth date.year date.month ≤ 31 := by
    unfold daysInMonth
    split
    · split <;> omega
    all_goals omega
  simp only [exists?, Bool.and_eq_true, decide_eq_true_eq] at real
  omega

end Date

end Zonecast.Time
