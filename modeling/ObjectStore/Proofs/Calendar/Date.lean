import Mathlib.Tactic.IntervalCases
import ObjectStore.Calendar.Date

/-!
# Dates and day numbers

The date of a day number is a date of the calendar, and its day number is the number again. An era is 400 years. In it a day belongs to a century, to a cycle of four years in the century and to a year in the cycle; a century and a cycle are a day longer when they end in a leap year, so their last days are the ones to look at.
-/

namespace ObjectStore

namespace Calendar

/-- A day of an era by its century, the cycle of four years in the century, the year in the cycle and the day in the year. Years begin in March. -/
structure DayOfEra (day : Int) where
  century : Int
  cycle : Int
  year : Int
  dayOfYear : Int
  century_bounds : 0 ≤ century ∧ century ≤ 3
  cycle_bounds : 0 ≤ cycle ∧ cycle ≤ 24
  year_bounds : 0 ≤ year ∧ year ≤ 3
  dayOfYear_nonneg : 0 ≤ dayOfYear
  last : dayOfYear ≤ 364 ∨ dayOfYear = 365 ∧ year = 3 ∧ (cycle < 24 ∨ century = 3)
  sum : day = 36524 * century + 1461 * cycle + 365 * year + dayOfYear

theorem exists_dayOfEra {day : Int} (hday : 0 ≤ day ∧ day ≤ 146096) : Nonempty (DayOfEra day) := by
  obtain ⟨century, hcentury, rest, hrest, hsum⟩ : ∃ century, (0 ≤ century ∧ century ≤ 3) ∧
      ∃ rest, (0 ≤ rest ∧ rest ≤ 36523 ∨ rest = 36524 ∧ century = 3) ∧ day = 36524 * century + rest :=
    ⟨min (day / 36524) 3, by omega, day - 36524 * min (day / 36524) 3, by omega, by omega⟩
  obtain ⟨cycle, hcycle, days, hdays, hrestSum⟩ : ∃ cycle, (0 ≤ cycle ∧ cycle ≤ 24) ∧
      ∃ days, (0 ≤ days ∧ days ≤ 1459 ∨ days = 1460 ∧ (cycle < 24 ∨ century = 3)) ∧ rest = 1461 * cycle + days :=
    ⟨rest / 1461, by omega, rest % 1461, by omega, by omega⟩
  refine ⟨⟨century, cycle, min (days / 365) 3, days - 365 * min (days / 365) 3, hcentury, hcycle, ?_, ?_, ?_, ?_⟩⟩
  all_goals omega

namespace DayOfEra

variable {day : Int} (parts : DayOfEra day)

/-- The year of the era. -/
def yearOfEra : Int := 100 * parts.century + 4 * parts.cycle + parts.year

theorem yearOfEra_bounds : 0 ≤ parts.yearOfEra ∧ parts.yearOfEra ≤ 399 := by
  have hcentury := parts.century_bounds
  have hcycle := parts.cycle_bounds
  have hyear := parts.year_bounds
  rw [yearOfEra]
  omega

theorem yearOfEra_eq : (day - day / 1460 + day / 36524 - day / 146096) / 365 = parts.yearOfEra := by
  obtain ⟨century, cycle, year, dayOfYear, hcentury, hcycle, hyear, hdayOfYear, hlast, hsum⟩ := parts
  simp only [yearOfEra]
  have hrest : 0 ≤ 1461 * cycle + 365 * year + dayOfYear ∧
      (1461 * cycle + 365 * year + dayOfYear ≤ 36523 ∨ 1461 * cycle + 365 * year + dayOfYear = 36524 ∧ century = 3) := by
    omega
  have hcycles : day / 1460 = 25 * century + cycle ∨ day / 1460 = 25 * century + cycle + 1 := by
    omega
  have hcenturies : day / 36524 - day / 146096 = century := by
    clear hcycles hlast
    rcases hrest.2 with hsmall | ⟨hlarge, rfl⟩
    · have hcenturyOf : day / 36524 = century := by
        omega
      omega
    · obtain rfl : day = 146096 := by
        omega
      rfl
  clear hrest
  omega

theorem yearStart_eq :
    day - (365 * parts.yearOfEra + parts.yearOfEra / 4 - parts.yearOfEra / 100) = parts.dayOfYear := by
  obtain ⟨century, cycle, year, dayOfYear, hcentury, hcycle, hyear, hdayOfYear, hlast, hsum⟩ := parts
  simp only [yearOfEra]
  have hcycles : (100 * century + 4 * cycle + year) / 4 = 25 * century + cycle := by
    omega
  have hcenturies : (100 * century + 4 * cycle + year) / 100 = century := by
    omega
  omega

theorem dayOfYear_le : parts.dayOfYear ≤ 365 := by
  have hlast := parts.last
  omega

/-- Only a year that is followed by a leap year in January has a 366th day. -/
theorem isLeapYear_of_last (h : parts.dayOfYear = 365) (era : Int) :
    isLeapYear (parts.yearOfEra + era * 400 + 1) = true := by
  obtain ⟨century, cycle, year, dayOfYear, hcentury, hcycle, hyear, hdayOfYear, hlast, hsum⟩ := parts
  simp only at h
  simp only [isLeapYear, yearOfEra, Bool.and_eq_true, Bool.or_eq_true, beq_iff_eq, bne_iff_ne]
  omega

end DayOfEra

theorem monthFromMarch_bounds {dayOfYear : Int} (h : 0 ≤ dayOfYear ∧ dayOfYear ≤ 365) :
    0 ≤ (5 * dayOfYear + 2) / 153 ∧ (5 * dayOfYear + 2) / 153 ≤ 11 ∧
      1 ≤ dayOfYear - (153 * ((5 * dayOfYear + 2) / 153) + 2) / 5 + 1 := by
  omega

theorem civilOfDayNumber_eq {number : Int} (parts : DayOfEra ((number + 719468) % 146097)) :
    civilOfDayNumber number =
      let era := (number + 719468) / 146097
      let month := (5 * parts.dayOfYear + 2) / 153
      let day := parts.dayOfYear - (153 * month + 2) / 5 + 1
      if month < 10 then (parts.yearOfEra + era * 400, (month + 3).toNat, day.toNat)
      else (parts.yearOfEra + era * 400 + 1, (month - 9).toNat, day.toNat) := by
  have hday : number + 719468 - (number + 719468) / 146097 * 146097 = (number + 719468) % 146097 := by
    omega
  have hmonth := monthFromMarch_bounds ⟨parts.dayOfYear_nonneg, parts.dayOfYear_le⟩
  simp only [civilOfDayNumber, hday, parts.yearOfEra_eq, parts.yearStart_eq]
  split
  · rw [if_neg (by omega)]
  · rw [if_pos (by omega)]

theorem dayNumber_eq (era : Int) {yearOfEra month day : Int} (hyear : 0 ≤ yearOfEra ∧ yearOfEra ≤ 399) (hmonth : 0 ≤ month ∧ month ≤ 11)
    (hday : 0 ≤ day) :
    (if month < 10 then dayNumber (yearOfEra + era * 400) (month + 3).toNat day.toNat
      else dayNumber (yearOfEra + era * 400 + 1) (month - 9).toNat day.toNat) =
      era * 146097 + (yearOfEra * 365 + yearOfEra / 4 - yearOfEra / 100 + ((153 * month + 2) / 5 + day - 1)) - 719468 := by
  have hera : (yearOfEra + era * 400) / 400 = era := by
    omega
  have hrest : yearOfEra + era * 400 - era * 400 = yearOfEra := by
    omega
  split
  · have hmonthNat : ((month + 3).toNat : Int) - 3 = month := by
      omega
    simp only [dayNumber]
    rw [if_neg (by omega), if_pos (by omega), hera, hrest, hmonthNat, Int.toNat_of_nonneg hday]
  · have hmonthNat : ((month - 9).toNat : Int) + 9 = month := by
      omega
    have hshifted : yearOfEra + era * 400 + 1 - 1 = yearOfEra + era * 400 := by
      omega
    simp only [dayNumber]
    rw [if_pos (by omega), if_neg (by omega), hshifted, hera, hrest, hmonthNat, Int.toNat_of_nonneg hday]

theorem dayNumber_civilOfDayNumber (number : Int) :
    dayNumber (civilOfDayNumber number).1 (civilOfDayNumber number).2.1 (civilOfDayNumber number).2.2 = number := by
  obtain ⟨parts⟩ : Nonempty (DayOfEra ((number + 719468) % 146097)) := exists_dayOfEra (by omega)
  obtain ⟨hmonth, hmonth', hday⟩ := monthFromMarch_bounds ⟨parts.dayOfYear_nonneg, parts.dayOfYear_le⟩
  have hnumber := dayNumber_eq ((number + 719468) / 146097) parts.yearOfEra_bounds ⟨hmonth, hmonth'⟩ (Int.le_trans (by decide) hday)
  have hsum := parts.yearStart_eq
  rw [civilOfDayNumber_eq parts]
  dsimp only
  by_cases hmarch : (5 * parts.dayOfYear + 2) / 153 < 10
  · rw [if_pos hmarch] at hnumber
    rw [if_pos hmarch, hnumber]
    omega
  · rw [if_neg hmarch] at hnumber
    rw [if_neg hmarch, hnumber]
    omega

/-- A month that is counted from March has its days, and February has 29 of them only before March of a leap year. -/
theorem day_le_daysInMonth {year month dayOfYear : Int} (hmonth : 0 ≤ month ∧ month ≤ 11)
    (hdays : month = (5 * dayOfYear + 2) / 153) (hlast : dayOfYear ≤ 364 ∨ dayOfYear = 365 ∧ isLeapYear (year + 1) = true) :
    (dayOfYear - (153 * month + 2) / 5 + 1).toNat ≤
      if month < 10 then daysInMonth year (month + 3).toNat else daysInMonth (year + 1) (month - 9).toNat := by
  obtain ⟨hmonth, hmonth'⟩ := hmonth
  interval_cases month
  case «11» =>
    have hdaysOfFebruary : daysInMonth (year + 1) 2 = if isLeapYear (year + 1) then 29 else 28 := rfl
    rw [if_neg (by decide), show ((11 : Int) - 9).toNat = 2 from rfl, hdaysOfFebruary]
    rcases hlast with hlast | ⟨hlast, hleap⟩
    · split <;> omega
    · rw [if_pos hleap]
      omega
  all_goals simp [daysInMonth]
  all_goals omega

theorem isDate_civilOfDayNumber {number : Int}
    (hyear : firstYear ≤ (civilOfDayNumber number).1 ∧ (civilOfDayNumber number).1 ≤ lastYear) :
    isDate (civilOfDayNumber number).1 (civilOfDayNumber number).2.1 (civilOfDayNumber number).2.2 = true := by
  obtain ⟨parts⟩ : Nonempty (DayOfEra ((number + 719468) % 146097)) := exists_dayOfEra (by omega)
  obtain ⟨hmonth, hmonth', hday⟩ := monthFromMarch_bounds ⟨parts.dayOfYear_nonneg, parts.dayOfYear_le⟩
  have hlast : parts.dayOfYear ≤ 364 ∨
      parts.dayOfYear = 365 ∧ isLeapYear (parts.yearOfEra + (number + 719468) / 146097 * 400 + 1) = true := by
    rcases Int.lt_or_eq_of_le parts.dayOfYear_le with hless | hlast
    · exact Or.inl (by omega)
    · exact Or.inr ⟨hlast, parts.isLeapYear_of_last hlast _⟩
  have hdays := day_le_daysInMonth ⟨hmonth, hmonth'⟩ rfl hlast
  rw [civilOfDayNumber_eq parts] at hyear ⊢
  dsimp only at hyear ⊢
  simp only [isDate, Bool.and_eq_true, decide_eq_true_eq]
  split at hyear
  case isTrue hmarch =>
    rw [if_pos hmarch] at hdays ⊢
    refine ⟨⟨hyear, ?_⟩, hdays⟩
    dsimp only
    omega
  case isFalse hmarch =>
    rw [if_neg hmarch] at hdays ⊢
    refine ⟨⟨hyear, ?_⟩, hdays⟩
    dsimp only
    omega

end Calendar

end ObjectStore
