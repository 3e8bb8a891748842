import Stencil.Proofs.Data.LocalDates
import Stencil.Proofs.Value.CheckedConversion

/-! Exact dates. Three numbers make a date if and only if they name a day whose midnight is a time
value, a time value has the date of the day that it lies in, and the text of a local date has that
date.
-/

namespace Stencil

-----------------------------------------------------------------------------------------
-- Making and reading dates
-----------------------------------------------------------------------------------------

namespace Date

variable {date : Date} {year month day : Number}

/-- Three numbers make a date if and only if they are whole and name a day whose midnight is a time
value.
-/
theorem ofNumbers_eq_ok_iff
    : ofNumbers year month day = .ok date
      ↔ (year.toInt? = some date.year ∧ month.toInt? = some date.month
          ∧ day.toInt? = some date.day)
        ∧ date.IsDay
        ∧ (date.dayNumber * millisPerDay).natAbs ≤ maxTime.natAbs := by
  constructor
  · intro made
    unfold ofNumbers at made
    split at made
    · rename_i y m d isYear isMonth isDay
      split at made
      · rename_i named found
        cases made
        obtain ⟨rfl, onCalendar⟩ := make?_eq_some_iff.1 found
        exact ⟨⟨isYear, isMonth, isDay⟩, onCalendar⟩
      · cases made
    · cases made
  · intro h
    obtain ⟨⟨isYear, isMonth, isDay⟩, onCalendar⟩ := h
    exact Value.ofNumbers_eq isYear isMonth isDay (isValid_iff.2 onCalendar)

/-- The fields of a day whose midnight is a time value are small. -/
theorem IsDay.fields_small (h : date.IsDay)
    (near : (date.dayNumber * millisPerDay).natAbs ≤ maxTime.natAbs)
    : date.year.natAbs ≤ 300000 ∧ date.month.natAbs ≤ 12 ∧ date.day.natAbs ≤ 31 := by
  have year := year_ofTime near
  rw [h.ofTime_midnight] at year
  have long := daysInMonth_le date.year date.month
  obtain ⟨monthFrom, monthTo, dayFrom, dayTo⟩ := h
  exact ⟨year, by omega, by omega⟩

/-- A small integer is the whole number of the number nearest to it, and of no other integer. -/
theorem toInt?_ofInt_eq_some_iff {n m : Int} (small : m.natAbs ≤ 300000)
    : (Number.ofInt n).toInt? = some m ↔ n = m := by
  have safe : m.natAbs ≤ Number.maxSafe := Nat.le_trans small (by decide)
  constructor
  · intro whole
    apply Eq.symm
    apply Number.eq_of_toSafeInt?_ofInt
    rw [Number.toSafeInt?, whole]
    simp [Option.filter, safe]
  · intro same
    subst same
    exact Number.toInt?_ofInt (Nat.lt_of_le_of_lt safe Number.maxSafe_lt)

/-- Three integers make a date if and only if they are a day whose midnight is a time value. -/
theorem ofNumbers_ofInt_eq_ok_iff {y m d : Int}
    : ofNumbers (.ofInt y) (.ofInt m) (.ofInt d) = .ok date
      ↔ date = ⟨y, m, d⟩
        ∧ date.IsDay
        ∧ (date.dayNumber * millisPerDay).natAbs ≤ maxTime.natAbs := by
  rw [ofNumbers_eq_ok_iff]
  apply and_congr_left
  intro onCalendar
  obtain ⟨isDay, near⟩ := onCalendar
  obtain ⟨year, month, day⟩ := isDay.fields_small near
  rw [toInt?_ofInt_eq_some_iff year, toInt?_ofInt_eq_some_iff (Nat.le_trans month (by omega)),
    toInt?_ofInt_eq_some_iff (Nat.le_trans day (by omega))]
  constructor
  · intro h
    obtain ⟨rfl, rfl, rfl⟩ := h
    rfl
  · intro same
    subst same
    exact ⟨rfl, rfl, rfl⟩

end Date

namespace Value

/-- Data with the value of a date, wherever they stand, with and without the look at the numbers. -/
structure ReadsDate (data : Plain) (date : Date) : Prop where
  checked (path : String) : ofPlainChecked path data = .ok (.scalar (.date date))
  unchecked (path : String) : ofPlain path data = .ok (.scalar (.date date))

/-- A time value has the date of the day that it lies in. -/
theorem readsDate_time {millis : Int} (near : millis.natAbs ≤ Date.maxTime.natAbs)
    : ReadsDate (.time (some millis)) (Date.ofTime millis) := by
  constructor
  · intro path
    rw [ofPlainChecked, ofTimeChecked_eq near]
    rfl
  · intro path
    rfl

end Value

namespace Data.Toml

variable {year month day : Nat}

/-- The midnight of a local date is a time value. -/
theorem IsLocal.near (h : IsLocal year month day)
    : ((⟨year, month, day⟩ : Date).dayNumber * Date.millisPerDay).natAbs
      ≤ Date.maxTime.natAbs := by
  have within := h.isDay.within_year
  have year_lt := h.year_lt
  simp only [Date.daysBeforeYear, Date.millisPerDay, Date.maxTime] at within ⊢
  omega

/-- The midnight of a local date has the date that is written. -/
theorem IsLocal.readsDate_midnight (h : IsLocal year month day)
    : Value.ReadsDate
        (.time (some ((⟨year, month, day⟩ : Date).dayNumber * Date.millisPerDay)))
        ⟨year, month, day⟩ := by
  have read := Value.readsDate_time h.near
  rwa [h.isDay.ofTime_midnight] at read

end Data.Toml

-----------------------------------------------------------------------------------------
-- Exactness
-----------------------------------------------------------------------------------------

namespace Value

/-- Dates are exact. Days are counted one by one from the start of 1970. Three integers make a date
if and only if they are a day whose midnight is a time value, and numbers that are not whole make
none. A time value has the date of the day that it lies in, whose number is rounded down. The text
of a local date is read as the time of a midnight, which has the date that is written.
-/
theorem dates_exact
    : ((⟨1970, 1, 1⟩ : Date).dayNumber = 0
        ∧ ∀ date : Date, date.IsDay →
            date.tomorrow.IsDay ∧ date.tomorrow.dayNumber = date.dayNumber + 1)
      ∧ (∀ (year month day : Int) (date : Date),
          Date.ofNumbers (.ofInt year) (.ofInt month) (.ofInt day) = .ok date
          ↔ date = ⟨year, month, day⟩
            ∧ date.IsDay
            ∧ (date.dayNumber * Date.millisPerDay).natAbs ≤ Date.maxTime.natAbs)
      ∧ (∀ (year month day : Number) (date : Date),
          Date.ofNumbers year month day = .ok date
          ↔ (year.toInt? = some date.year ∧ month.toInt? = some date.month
              ∧ day.toInt? = some date.day)
            ∧ date.IsDay
            ∧ (date.dayNumber * Date.millisPerDay).natAbs ≤ Date.maxTime.natAbs)
      ∧ (∀ millis : Int, millis.natAbs ≤ Date.maxTime.natAbs →
          ∃ date : Date,
            ReadsDate (.time (some millis)) date
            ∧ date.IsDay
            ∧ date.dayNumber = millis / Date.millisPerDay)
      ∧ ∀ year month day : Nat, Data.Toml.IsLocal year month day →
          ∃ midnight : Plain,
            Data.Toml.bareValue? (Date.text ⟨year, month, day⟩).toList = some midnight
            ∧ midnight = .time (some ((⟨year, month, day⟩ : Date).dayNumber * Date.millisPerDay))
            ∧ ReadsDate midnight ⟨year, month, day⟩ := by
  refine ⟨⟨Date.dayNumber_start, ?_⟩, ?_, ?_, ?_, ?_⟩
  · intro date isDay
    exact ⟨isDay.tomorrow, isDay.dayNumber_tomorrow⟩
  · intro year month day date
    exact Date.ofNumbers_ofInt_eq_ok_iff
  · intro year month day date
    exact Date.ofNumbers_eq_ok_iff
  · intro millis near
    exact ⟨Date.ofTime millis, readsDate_time near, Date.isDay_ofDayNumber _,
      (Date.ofDayNumber_spec _).1⟩
  · intro year month day isLocal
    exact ⟨_, isLocal.bareValue?_text, rfl, isLocal.readsDate_midnight⟩

/-- The first day whose midnight is a time value can be made, and the day before it cannot; 1900 has
no 29th of February. The first time value lies in that day, and the last millisecond before 1970 in
the last day of 1969. A 29th of February is read as it is written.
-/
theorem dates_exact_ends
    : Date.ofNumbers (.ofInt (-271821)) (.ofInt 4) (.ofInt 20) = .ok ⟨-271821, 4, 20⟩
      ∧ (∀ date : Date,
          Date.ofNumbers (.ofInt (-271821)) (.ofInt 4) (.ofInt 19) ≠ .ok date
          ∧ Date.ofNumbers (.ofInt 1900) (.ofInt 2) (.ofInt 29) ≠ .ok date)
      ∧ ReadsDate (.time (some (-8640000000000000))) ⟨-271821, 4, 20⟩
      ∧ ReadsDate (.time (some (-1))) ⟨1969, 12, 31⟩
      ∧ ∃ midnight : Plain,
          Data.Toml.bareValue? "2024-02-29".toList = some midnight
          ∧ ReadsDate midnight ⟨2024, 2, 29⟩ := by
  obtain ⟨-, made, -, times, locals⟩ := dates_exact
  have first : Date.IsDay ⟨-271821, 4, 20⟩ :=
    ⟨by decide, by decide, by decide, by decide⟩
  have newYearsEve : Date.IsDay ⟨1969, 12, 31⟩ :=
    ⟨by decide, by decide, by decide, by decide⟩
  refine ⟨(made _ _ _ _).2 ⟨rfl, first, by decide⟩, ?_, ?_, ?_, ?_⟩
  · intro date
    constructor
    · intro same
      obtain ⟨rfl, -, near⟩ := (made _ _ _ _).1 same
      exact absurd near (by decide)
    · intro same
      obtain ⟨rfl, isDay, -⟩ := (made _ _ _ _).1 same
      exact absurd isDay.dayTo (by decide)
  · obtain ⟨date, read, isDay, number⟩ := times (-8640000000000000) (by decide)
    rwa [isDay.eq_of_dayNumber_eq first number] at read
  · obtain ⟨date, read, isDay, number⟩ := times (-1) (by decide)
    rwa [isDay.eq_of_dayNumber_eq newYearsEve number] at read
  · have isLocal : Data.Toml.IsLocal 2024 2 29 :=
      ⟨by decide, by decide, by decide, by decide, by decide⟩
    obtain ⟨midnight, read, -, date⟩ := locals 2024 2 29 isLocal
    exact ⟨midnight, read, date⟩

end Value

end Stencil
