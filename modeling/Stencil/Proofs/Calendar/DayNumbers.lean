import Stencil.Calendar

/-! Dates and day numbers. The date with a day number is on the calendar and has that number, and
the date of a time value is valid.
-/

namespace Stencil.Date

variable {year number millis : Int}

-----------------------------------------------------------------------------------------
-- Years
-----------------------------------------------------------------------------------------

/-- The days of a year. -/
theorem daysBeforeYear_succ (year : Int)
    : daysBeforeYear (year + 1)
      = daysBeforeYear year + if isLeapYear year then 366 else 365 := by
  simp only [daysBeforeYear, isLeapYear, Bool.and_eq_true, Bool.or_eq_true, decide_eq_true_eq]
  split <;> omega

theorem daysOfMonths_twelve (year : Int)
    : daysOfMonths year 12 = if isLeapYear year then 366 else 365 := by
  simp [daysOfMonths, daysInMonth]
  split <;> rfl

/-- A day lies in its year. The estimate of the year is at most one off on either side. -/
theorem yearOfDay_spec (day : Int)
    : daysBeforeYear (yearOfDay day) ≤ day ∧ day < daysBeforeYear (yearOfDay day + 1) := by
  unfold yearOfDay
  simp only
  split
  · rename_i above
    refine ⟨above, ?_⟩
    unfold daysBeforeYear
    omega
  · rename_i notAbove
    split
    · rename_i here
      exact ⟨here, Int.not_le.1 notAbove⟩
    · rename_i below
      refine ⟨?_, ?_⟩
      · unfold daysBeforeYear
        omega
      · rw [Int.sub_add_cancel]
        exact Int.not_le.1 below

-----------------------------------------------------------------------------------------
-- Months
-----------------------------------------------------------------------------------------

theorem daysInMonth_le (year month : Int) : daysInMonth year month ≤ 31 := by
  unfold daysInMonth
  repeat' split
  all_goals omega

/-- A month is found for a day of the months that are left, and the days before it are those of the
months before. By induction on the number of months left.
-/
theorem monthOfDay_spec (year : Int) (left passed : Nat) {day : Int} (from0 : 0 ≤ day)
    (before : day < daysOfMonths year (passed + left + 1) - daysOfMonths year passed)
    : ∃ months : Nat, ∃ dayOfMonth : Int,
        monthOfDay year left (passed + 1) day = ((months : Int) + 1, dayOfMonth)
        ∧ months ≤ passed + left
        ∧ 1 ≤ dayOfMonth
        ∧ dayOfMonth ≤ daysInMonth year (months + 1)
        ∧ daysOfMonths year months + (dayOfMonth - 1) = daysOfMonths year passed + day := by
  induction left generalizing passed day with
  | zero =>
      refine ⟨passed, day + 1, rfl, Nat.le_refl _, ?_, ?_, ?_⟩
      · omega
      · rw [Nat.add_zero, daysOfMonths] at before
        omega
      · omega
  | succ left ih =>
      rw [monthOfDay]
      split
      · exact ⟨passed, day + 1, rfl, by omega, by omega, by omega, by omega⟩
      · rename_i notHere
        have next : daysOfMonths year (passed + 1)
            = daysOfMonths year passed + daysInMonth year (passed + 1) := rfl
        have more : passed + 1 + left + 1 = passed + (left + 1) + 1 := by omega
        obtain ⟨months, dayOfMonth, found, atMost, first, last, counted⟩ :=
          ih (passed + 1) (show 0 ≤ day - daysInMonth year (passed + 1) by omega) (by
            rw [more]
            omega)
        refine ⟨months, dayOfMonth, ?_, by omega, first, last, by omega⟩
        rw [← found]
        push_cast
        rfl

-----------------------------------------------------------------------------------------
-- Dates
-----------------------------------------------------------------------------------------

/-- The date with a day number is a day of a month and has that number. -/
theorem ofDayNumber_spec (number : Int)
    : (ofDayNumber number).dayNumber = number
      ∧ 1 ≤ (ofDayNumber number).month
      ∧ (ofDayNumber number).month ≤ 12
      ∧ 1 ≤ (ofDayNumber number).day
      ∧ (ofDayNumber number).day
        ≤ daysInMonth (ofDayNumber number).year (ofDayNumber number).month := by
  obtain ⟨notBefore, before⟩ := yearOfDay_spec (number + daysBeforeYear 1970)
  generalize place : number + daysBeforeYear 1970 = day at notBefore before
  have within : day - daysBeforeYear (yearOfDay day)
      < daysOfMonths (yearOfDay day) (0 + 11 + 1) - daysOfMonths (yearOfDay day) 0 := by
    rw [daysOfMonths_twelve, daysOfMonths]
    rw [daysBeforeYear_succ] at before
    omega
  obtain ⟨months, dayOfMonth, found, atMost, first, last, counted⟩ :=
    monthOfDay_spec (yearOfDay day) 11 0 (Int.sub_nonneg.2 notBefore) within
  have date : ofDayNumber number = ⟨yearOfDay day, months + 1, dayOfMonth⟩ := by
    have found
        : monthOfDay (yearOfDay day) 11 1 (day - daysBeforeYear (yearOfDay day))
          = ((months : Int) + 1, dayOfMonth) :=
      found
    simp only [ofDayNumber, place, found]
  rw [date]
  have fromJanuary : (1 : Int) ≤ months + 1 := by omega
  have toDecember : (months : Int) + 1 ≤ 12 := by omega
  refine ⟨?_, fromJanuary, toDecember, first, last⟩
  have passed : ((months : Int) + 1 - 1).toNat = months := by omega
  rw [daysOfMonths] at counted
  simp only [dayNumber, passed]
  omega

/-- Whether a date is on the calendar and its midnight is a time value. -/
def isValid (date : Date) : Bool :=
  1 ≤ date.month && date.month ≤ 12 && 1 ≤ date.day
    && date.day ≤ daysInMonth date.year date.month
    && (date.dayNumber * millisPerDay).natAbs ≤ maxTime.natAbs

/-- The midnight of a day whose number is small enough is a time value. -/
theorem isValid_ofDayNumber (near : (number * millisPerDay).natAbs ≤ maxTime.natAbs)
    : (ofDayNumber number).isValid = true := by
  obtain ⟨counted, monthFrom, monthTo, dayFrom, dayTo⟩ := ofDayNumber_spec number
  simp only [isValid, Bool.and_eq_true, decide_eq_true_eq]
  exact ⟨⟨⟨⟨monthFrom, monthTo⟩, dayFrom⟩, dayTo⟩, by rwa [counted]⟩

/-- The date of a time value is valid: the midnight before a time value is one. -/
theorem isValid_ofTime (near : millis.natAbs ≤ maxTime.natAbs)
    : (ofTime millis).isValid = true := by
  refine isValid_ofDayNumber ?_
  simp only [maxTime, millisPerDay] at near ⊢
  omega

/-- The years of time values. -/
theorem year_ofTime (near : millis.natAbs ≤ maxTime.natAbs)
    : (ofTime millis).year.natAbs ≤ 300000 := by
  obtain ⟨notBefore, before⟩ := yearOfDay_spec (millis / millisPerDay + daysBeforeYear 1970)
  rw [ofTime, ofDayNumber]
  generalize yearOfDay (millis / millisPerDay + daysBeforeYear 1970) = year at notBefore before
  simp only [daysBeforeYear, maxTime, millisPerDay] at near notBefore before ⊢
  omega

end Stencil.Date
