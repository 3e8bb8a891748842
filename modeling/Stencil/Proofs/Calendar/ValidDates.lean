import Stencil.Proofs.Calendar.DayNumbers

/-! Which dates there are. A day of a month is the only one with its number, so a day number tells
the date, and the day after it has the next number. Looking a day up in a leap year first tells
whether it is on the calendar.
-/

namespace Stencil.Date

variable {year month day : Int} {date other : Date}

-----------------------------------------------------------------------------------------
-- Days of months
-----------------------------------------------------------------------------------------

/-- A day of a month. -/
structure IsDay (date : Date) : Prop where
  monthFrom : 1 ≤ date.month
  monthTo : date.month ≤ 12
  dayFrom : 1 ≤ date.day
  dayTo : date.day ≤ daysInMonth date.year date.month

theorem isDay_ofDayNumber (number : Int) : IsDay (ofDayNumber number) := by
  obtain ⟨-, monthFrom, monthTo, dayFrom, dayTo⟩ := ofDayNumber_spec number
  exact ⟨monthFrom, monthTo, dayFrom, dayTo⟩

theorem isValid_iff
    : date.isValid = true
      ↔ date.IsDay ∧ (date.dayNumber * millisPerDay).natAbs ≤ maxTime.natAbs := by
  simp only [isValid, Bool.and_eq_true, decide_eq_true_eq]
  constructor
  · intro h
    obtain ⟨⟨⟨⟨monthFrom, monthTo⟩, dayFrom⟩, dayTo⟩, near⟩ := h
    exact ⟨⟨monthFrom, monthTo, dayFrom, dayTo⟩, near⟩
  · intro h
    obtain ⟨⟨monthFrom, monthTo, dayFrom, dayTo⟩, near⟩ := h
    exact ⟨⟨⟨⟨monthFrom, monthTo⟩, dayFrom⟩, dayTo⟩, near⟩

theorem daysInMonth_nonneg (year month : Int) : 0 ≤ daysInMonth year month := by
  unfold daysInMonth
  repeat' split
  all_goals omega

/-- No month is empty. -/
theorem daysInMonth_pos (monthFrom : 1 ≤ month) (monthTo : month ≤ 12)
    : 1 ≤ daysInMonth year month := by
  unfold daysInMonth
  repeat' split
  all_goals simp_all

/-- The months of the year 2000 are as long as months can be. -/
theorem daysInMonth_le_leap (year month : Int)
    : daysInMonth year month ≤ daysInMonth 2000 month := by
  have leap : isLeapYear 2000 = true := by decide
  simp only [daysInMonth, leap, if_true]
  split
  · split <;> omega
  · exact Int.le_refl _

theorem daysOfMonths_mono (year : Int) {months later : Nat} (notAfter : months ≤ later)
    : daysOfMonths year months ≤ daysOfMonths year later := by
  induction notAfter with
  | refl => exact Int.le_refl _
  | @step later _ ih =>
      have more := daysInMonth_nonneg year (later + 1)
      rw [daysOfMonths]
      omega

-----------------------------------------------------------------------------------------
-- The number of a day
-----------------------------------------------------------------------------------------

/-- The days of a year before one of its days. -/
def daysPassed (date : Date) : Int :=
  daysOfMonths date.year (date.month - 1).toNat + (date.day - 1)

theorem dayNumber_eq (date : Date)
    : date.dayNumber = daysBeforeYear date.year - daysBeforeYear 1970 + date.daysPassed := by
  rw [dayNumber, daysPassed]
  omega

theorem IsDay.le_daysPassed (h : IsDay date)
    : daysOfMonths date.year (date.month - 1).toNat ≤ date.daysPassed := by
  have := h.dayFrom
  rw [daysPassed]
  omega

/-- A day of a month comes before the first day of the next month. -/
theorem IsDay.daysPassed_lt (h : IsDay date)
    : date.daysPassed < daysOfMonths date.year date.month.toNat := by
  have monthFrom := h.monthFrom
  have dayTo := h.dayTo
  have months : date.month.toNat = (date.month - 1).toNat + 1 := by omega
  have month : ((date.month - 1).toNat : Int) + 1 = date.month := by omega
  rw [daysPassed, months, daysOfMonths, month]
  omega

/-- A day of a month is a day of its year. -/
theorem IsDay.within_year (h : IsDay date)
    : daysBeforeYear date.year ≤ date.dayNumber + daysBeforeYear 1970
      ∧ date.dayNumber + daysBeforeYear 1970 < daysBeforeYear (date.year + 1) := by
  have first : 0 ≤ daysOfMonths date.year (date.month - 1).toNat :=
    daysOfMonths_mono date.year (Nat.zero_le _)
  have last : daysOfMonths date.year date.month.toNat ≤ daysOfMonths date.year 12 := by
    have := h.monthTo
    exact daysOfMonths_mono date.year (by omega)
  have passed := h.le_daysPassed
  have left := h.daysPassed_lt
  rw [daysOfMonths_twelve] at last
  rw [dayNumber_eq, daysBeforeYear_succ]
  omega

theorem daysBeforeYear_le {later : Int} (before : year < later)
    : daysBeforeYear (year + 1) ≤ daysBeforeYear later := by
  unfold daysBeforeYear
  omega

/-- The first date comes first in the order of years, in a year in the order of months, and in a
month in the order of days.
-/
def Before (date other : Date) : Prop :=
  date.year < other.year
  ∨ date.year = other.year
    ∧ (date.month < other.month ∨ date.month = other.month ∧ date.day < other.day)

theorem before_or_eq_or_before (date other : Date)
    : date.Before other ∨ date = other ∨ other.Before date := by
  obtain ⟨year, month, day⟩ := date
  obtain ⟨year', month', day'⟩ := other
  simp only [Before, Date.mk.injEq]
  omega

/-- Days of months are numbered in the order of their dates: a year ends before the next one starts,
and a month does.
-/
theorem IsDay.dayNumber_lt (h : IsDay date) (h' : IsDay other) (before : date.Before other)
    : date.dayNumber < other.dayNumber := by
  rcases before with year | ⟨year, month | ⟨month, day⟩⟩
  · have years := daysBeforeYear_le year
    have upper := h.within_year
    have lower := h'.within_year
    omega
  · have monthFrom := h.monthFrom
    have months := daysOfMonths_mono other.year
      (show date.month.toNat ≤ (other.month - 1).toNat by omega)
    have upper := h.daysPassed_lt
    have lower := h'.le_daysPassed
    rw [year] at upper
    rw [dayNumber_eq, dayNumber_eq, year]
    omega
  · simp only [dayNumber, year, month]
    omega

theorem IsDay.before_iff (h : IsDay date) (h' : IsDay other)
    : date.Before other ↔ date.dayNumber < other.dayNumber := by
  refine ⟨h.dayNumber_lt h', fun less => ?_⟩
  rcases before_or_eq_or_before date other with before | rfl | behind
  · exact before
  · omega
  · have := h'.dayNumber_lt h behind
    omega

/-- Days of months with the same number are the same, as neither comes before the other. -/
theorem IsDay.eq_of_dayNumber_eq (h : IsDay date) (h' : IsDay other)
    (same : date.dayNumber = other.dayNumber)
    : date = other := by
  rcases before_or_eq_or_before date other with before | here | behind
  · have := h.dayNumber_lt h' before
    omega
  · exact here
  · have := h'.dayNumber_lt h behind
    omega

/-- The number of a day of a month tells the day. -/
theorem IsDay.ofDayNumber_dayNumber (h : IsDay date) : ofDayNumber date.dayNumber = date :=
  (isDay_ofDayNumber _).eq_of_dayNumber_eq h (ofDayNumber_spec _).1

theorem millisPerDay_pos : 0 < millisPerDay := by
  rw [millisPerDay]
  omega

/-- The midnight of a day of a month tells the day. -/
theorem IsDay.ofTime_midnight (h : IsDay date) : ofTime (date.dayNumber * millisPerDay) = date := by
  rw [ofTime, Int.mul_ediv_cancel _ (Int.ne_of_gt millisPerDay_pos), h.ofDayNumber_dayNumber]

-----------------------------------------------------------------------------------------
-- Counting days
-----------------------------------------------------------------------------------------

/-- The day after a day: of the same month, of the next month or of the next year. -/
def tomorrow (date : Date) : Date :=
  if date.day < daysInMonth date.year date.month then ⟨date.year, date.month, date.day + 1⟩
  else if date.month < 12 then ⟨date.year, date.month + 1, 1⟩
  else ⟨date.year + 1, 1, 1⟩

theorem IsDay.tomorrow (h : IsDay date) : IsDay date.tomorrow := by
  have monthFrom := h.monthFrom
  have monthTo := h.monthTo
  have dayFrom := h.dayFrom
  unfold Date.tomorrow
  split
  · rename_i more
    exact ⟨monthFrom, monthTo, show 1 ≤ date.day + 1 by omega, more⟩
  · split
    · rename_i next
      have long : 1 ≤ daysInMonth date.year (date.month + 1) :=
        daysInMonth_pos (by omega) (by omega)
      exact ⟨show 1 ≤ date.month + 1 by omega, next, Int.le_refl 1, long⟩
    · have long : 1 ≤ daysInMonth (date.year + 1) 1 := daysInMonth_pos (by omega) (by omega)
      exact ⟨Int.le_refl 1, by simp, Int.le_refl 1, long⟩

/-- Days are numbered one after the other. The last day of December comes before the first day of
the next year, since the twelve months have the days of the year.
-/
theorem IsDay.dayNumber_tomorrow (h : IsDay date)
    : date.tomorrow.dayNumber = date.dayNumber + 1 := by
  have monthFrom := h.monthFrom
  have monthTo := h.monthTo
  have dayTo := h.dayTo
  have months : date.month.toNat = (date.month - 1).toNat + 1 := by omega
  have month : ((date.month - 1).toNat : Int) + 1 = date.month := by omega
  have passed
      : daysOfMonths date.year date.month.toNat
        = daysOfMonths date.year (date.month - 1).toNat + daysInMonth date.year date.month := by
    rw [months, daysOfMonths, month]
  unfold Date.tomorrow
  split
  · simp only [dayNumber]
    omega
  · split
    · have back : date.month + 1 - 1 = date.month := by omega
      simp only [dayNumber, back]
      omega
    · have december : date.month.toNat = 12 := by omega
      have none : daysOfMonths (date.year + 1) ((1 : Int) - 1).toNat = 0 := rfl
      rw [december, daysOfMonths_twelve] at passed
      simp only [dayNumber, daysBeforeYear_succ, none]
      omega

/-- The first of January 1970 is the day with the number zero. -/
theorem dayNumber_start : (⟨1970, 1, 1⟩ : Date).dayNumber = 0 :=
  rfl

-----------------------------------------------------------------------------------------
-- Looking up a day
-----------------------------------------------------------------------------------------

/-- A day that is found in the year 2000 is moved to the midnight with the same month and day. -/
theorem inYear?_midnight? (h : IsDay ⟨2000, month, day⟩) (year : Int)
    : inYear? (midnight? ⟨2000, month, day⟩) year = midnight? ⟨year, month, day⟩ := by
  have near : ((⟨2000, month, day⟩ : Date).dayNumber * millisPerDay).natAbs ≤ maxTime.natAbs := by
    have within := h.within_year
    simp only [daysBeforeYear, millisPerDay, maxTime] at within ⊢
    omega
  have found : midnight? ⟨2000, month, day⟩
      = some ((⟨2000, month, day⟩ : Date).dayNumber * millisPerDay) :=
    if_pos near
  rw [found, inYear?, Option.getD_some, h.ofTime_midnight, Int.mul_emod_left, Int.add_zero]
  rfl

/-- The 29th of February of a year without one is counted on to the first of March. -/
theorem dayNumber_march (common : isLeapYear year = false)
    : (⟨year, 2, 29⟩ : Date).dayNumber = (⟨year, 3, 1⟩ : Date).dayNumber := by
  simp [dayNumber, daysOfMonths, daysInMonth, common]
  omega

/-- A day that the year 2000 has is a day of a year if and only if the day with its number has the
same month and the same day of the month.
-/
theorem isDay_iff_of_leap (h : IsDay ⟨2000, month, day⟩) (year : Int)
    : (ofDayNumber (⟨year, month, day⟩ : Date).dayNumber).month = month
        ∧ (ofDayNumber (⟨year, month, day⟩ : Date).dayNumber).day = day
      ↔ IsDay ⟨year, month, day⟩ := by
  constructor
  · intro same
    refine ⟨h.monthFrom, h.monthTo, h.dayFrom, ?_⟩
    apply Decidable.byContradiction
    intro beyond
    -- Only February is shorter than in the year 2000, and only by its last day.
    have dayTo := h.dayTo
    have leap : isLeapYear 2000 = true := by decide
    simp only [daysInMonth, leap, if_true] at dayTo beyond
    split at dayTo
    · rename_i february
      subst february
      cases common : isLeapYear year with
      | true => simp [common, dayTo] at beyond
      | false =>
          simp only [common, if_true, Bool.false_eq_true, if_false] at beyond
          have last : day = 29 := by omega
          have march : IsDay ⟨year, 3, 1⟩ := ⟨by simp, by simp, by simp, by simp [daysInMonth]⟩
          rw [last, dayNumber_march common, march.ofDayNumber_dayNumber] at same
          exact absurd same.1 (by simp)
    · rename_i other
      simp only [other, if_false] at beyond
      exact beyond dayTo
  · intro isDay
    rw [isDay.ofDayNumber_dayNumber]
    exact ⟨rfl, rfl⟩

/-- Three numbers are found on the calendar exactly if they are a day of a month whose midnight is a
time value.
-/
theorem isOnCalendar_iff
    : isOnCalendar year month day = true
      ↔ IsDay ⟨year, month, day⟩
        ∧ ((⟨year, month, day⟩ : Date).dayNumber * millisPerDay).natAbs ≤ maxTime.natAbs := by
  by_cases leap : IsDay ⟨2000, month, day⟩
  · have range : ¬ (month < 1 || decide (12 < month) || decide (day < 1)) = true := by
      have monthFrom : 1 ≤ month := leap.monthFrom
      have monthTo : month ≤ 12 := leap.monthTo
      have dayFrom : 1 ≤ day := leap.dayFrom
      simp only [Bool.or_eq_true, decide_eq_true_eq, not_or, Int.not_lt]
      exact ⟨⟨monthFrom, monthTo⟩, dayFrom⟩
    rw [isOnCalendar, if_neg range, inYear?_midnight? leap, midnight?, clip?]
    by_cases near
        : ((⟨year, month, day⟩ : Date).dayNumber * millisPerDay).natAbs ≤ maxTime.natAbs
    · simp only [near, if_true, ofTime, Int.mul_ediv_cancel _ (Int.ne_of_gt millisPerDay_pos),
        Bool.and_eq_true, decide_eq_true_eq, isDay_iff_of_leap leap, and_true]
    · simp [near]
  · -- What is found is a day of a month, and no month is longer than in the year 2000.
    constructor
    · intro found
      rw [isOnCalendar] at found
      split at found
      · cases found
      · split at found
        · cases found
        · rename_i range _ time _
          simp only [Bool.and_eq_true, decide_eq_true_eq] at found
          obtain ⟨isMonth, isDay⟩ := found
          have there := isDay_ofDayNumber (time / millisPerDay)
          rw [← ofTime] at there
          have long := daysInMonth_le_leap (ofTime time).year month
          obtain ⟨monthFrom, monthTo, dayFrom, dayTo⟩ := there
          rw [isMonth] at monthFrom monthTo dayTo
          rw [isDay] at dayFrom dayTo
          exact absurd ⟨monthFrom, monthTo, dayFrom, Int.le_trans dayTo long⟩ leap
    · intro h
      obtain ⟨⟨monthFrom, monthTo, dayFrom, dayTo⟩, -⟩ := h
      have long := daysInMonth_le_leap year month
      exact absurd ⟨monthFrom, monthTo, dayFrom, Int.le_trans dayTo long⟩ leap

theorem make?_eq_some_iff
    : make? year month day = some date
      ↔ date = ⟨year, month, day⟩
        ∧ date.IsDay
        ∧ (date.dayNumber * millisPerDay).natAbs ≤ maxTime.natAbs := by
  rw [make?, Option.ite_none_right_eq_some, isOnCalendar_iff, Option.some.injEq]
  constructor
  · intro h
    obtain ⟨found, rfl⟩ := h
    exact ⟨rfl, found⟩
  · intro h
    obtain ⟨rfl, found⟩ := h
    exact ⟨found, rfl⟩

end Stencil.Date
