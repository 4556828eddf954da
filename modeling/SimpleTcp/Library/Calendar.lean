import Mathlib.Data.Int.Init

/-!
# The calendar

The days since 1970-01-01, before and after, have dates in the Gregorian calendar. The years are
counted from March on, so that a leap day is the last day of its year, of its four years and, every
fourth time, of its century.

## Main definitions

* `CivilDate.ofDays`, `CivilDate.toDays`: the date of a day, and its inverse

## Main results

* `CivilDate.toDays_ofDays`, `CivilDate.ofDays_inj`: different days have different dates
-/

structure CivilDate where
  year : ℤ
  month : ℤ
  day : ℤ
  deriving DecidableEq, Repr

namespace CivilDate

/-- The date of the day that is `n` days after 1970-01-01. -/
def ofDays (n : ℤ) : CivilDate :=
  -- 719468 days before it is the first of March of the year 0
  let z := n + 719468
  let dayOfEra := z % 146097
  let century := min (dayOfEra / 36524) 3
  let dayOfCentury := dayOfEra - 36524 * century
  let dayOfFour := dayOfCentury % 1461
  let yearOfFour := min (dayOfFour / 365) 3
  let dayOfYear := dayOfFour - 365 * yearOfFour
  let year := 400 * (z / 146097) + 100 * century + 4 * (dayOfCentury / 1461) + yearOfFour
  -- five months have 153 days
  let month := (5 * dayOfYear + 2) / 153
  let day := dayOfYear - (153 * month + 2) / 5 + 1
  if month < 10 then ⟨year, month + 3, day⟩ else ⟨year + 1, month - 9, day⟩

def toDays (date : CivilDate) : ℤ :=
  let year := if date.month ≤ 2 then date.year - 1 else date.year
  let month := if date.month ≤ 2 then date.month + 9 else date.month - 3
  365 * year + year / 4 - year / 100 + year / 400 + (153 * month + 2) / 5 + date.day - 1 - 719468

theorem toDays_ofDays (n : ℤ) : (ofDays n).toDays = n := by
  unfold ofDays
  simp only
  generalize hz : n + 719468 = z
  generalize hera : z / 146097 = era
  generalize hdayOfEra : z % 146097 = dayOfEra
  generalize hcentury : min (dayOfEra / 36524) 3 = century
  generalize hdayOfCentury : dayOfEra - 36524 * century = dayOfCentury
  generalize hfour : dayOfCentury / 1461 = four
  generalize hdayOfFour : dayOfCentury % 1461 = dayOfFour
  generalize hyearOfFour : min (dayOfFour / 365) 3 = yearOfFour
  generalize hdayOfYear : dayOfFour - 365 * yearOfFour = dayOfYear
  -- every position has its range, the last of a kind included
  have hcenturies : 0 ≤ century ∧ century ≤ 3 ∧ 0 ≤ dayOfCentury ∧ dayOfCentury ≤ 36524 := by omega
  have hfours : 0 ≤ four ∧ four ≤ 24 ∧ 0 ≤ dayOfFour ∧ dayOfFour ≤ 1460 := by omega
  have hyears : 0 ≤ yearOfFour ∧ yearOfFour ≤ 3 ∧ 0 ≤ dayOfYear ∧ dayOfYear ≤ 365 := by omega
  have hsum : z = 146097 * era + 36524 * century + 1461 * four + 365 * yearOfFour + dayOfYear := by
    omega
  clear hera hdayOfEra hcentury hdayOfCentury hfour hdayOfFour hyearOfFour hdayOfYear
  generalize hyear : 400 * era + 100 * century + 4 * four + yearOfFour = year
  have hleap : 365 * year + year / 4 - year / 100 + year / 400 =
      146097 * era + 36524 * century + 1461 * four + 365 * yearOfFour := by
    omega
  split
  · next hmonth =>
    have hafter : ¬ (5 * dayOfYear + 2) / 153 + 3 ≤ 2 := by omega
    simp only [toDays, if_neg hafter]
    omega
  · next hmonth =>
    have hbefore : (5 * dayOfYear + 2) / 153 - 9 ≤ 2 := by omega
    simp only [toDays, if_pos hbefore, Int.add_sub_cancel]
    omega

/-- **Different days have different dates.** -/
theorem ofDays_inj {m n : ℤ} : ofDays m = ofDays n ↔ m = n := by
  refine ⟨fun h => ?_, congrArg ofDays⟩
  rw [← toDays_ofDays m, h, toDays_ofDays]

example : ofDays 19782 = ⟨2024, 2, 29⟩ := by decide

end CivilDate
