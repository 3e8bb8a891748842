/-!
Calendar dates of the proleptic Gregorian calendar, and the time values, in milliseconds from
the start of 1970, that they are read from.
-/

namespace Stencil

/-- A year, a month and a day, the last two counted from one. -/
structure Date where
  year : Int
  month : Int
  day : Int
  deriving DecidableEq, Repr, Inhabited

namespace Date

/-- Whether a year has a 29th of February. -/
def isLeapYear (year : Int) : Bool :=
  year % 4 = 0 && (year % 100 ≠ 0 || year % 400 = 0)

/-- The number of days of a month; zero for no month. -/
def daysInMonth (year month : Int) : Int :=
  if month = 2 then (if isLeapYear year then 29 else 28)
  else if month = 4 || month = 6 || month = 9 || month = 11 then 30
  else if 1 ≤ month && month ≤ 12 then 31
  else 0

/-- The number of days before the year, counted from the start of year zero. -/
def daysBeforeYear (year : Int) : Int :=
  365 * year + (year + 3) / 4 - (year + 99) / 100 + (year + 399) / 400

/-- The number of days of the first months of a year. -/
def daysOfMonths (year : Int) : Nat → Int
  | 0 => 0
  | months + 1 => daysOfMonths year months + daysInMonth year (months + 1)

/-- The day count of a date from 1970-01-01. -/
def dayNumber (date : Date) : Int :=
  daysBeforeYear date.year - daysBeforeYear 1970
    + daysOfMonths date.year (date.month - 1).toNat + (date.day - 1)

/-- The milliseconds of a day. -/
def millisPerDay : Int := 86400000

/-- The largest distance of a time value from the start of 1970. -/
def maxTime : Int := 8640000000000000

/-- The last year whose first day is not after the day with a given count from the start of
year zero, found from an estimate that is at most one year off.
-/
def yearOfDay (day : Int) : Int :=
  let estimate := day * 400 / 146097
  if daysBeforeYear (estimate + 1) ≤ day then estimate + 1
  else if daysBeforeYear estimate ≤ day then estimate
  else estimate - 1

/-- The month and the day of the month of a day of a year, counted from zero, at or after a
given month.
-/
def monthOfDay (year : Int) : Nat → Int → Int → Int × Int
  | 0, month, day => (month, day + 1)
  | left + 1, month, day =>
    if day < daysInMonth year month then (month, day + 1)
    else monthOfDay year left (month + 1) (day - daysInMonth year month)

/-- The date with a given day count from 1970-01-01. -/
def ofDayNumber (number : Int) : Date :=
  let day := number + daysBeforeYear 1970
  let year := yearOfDay day
  let (month, day) := monthOfDay year 11 1 (day - daysBeforeYear year)
  ⟨year, month, day⟩

/-- The date of a time value. -/
def ofTime (millis : Int) : Date :=
  ofDayNumber (millis / millisPerDay)

/-- A count of milliseconds from the start of 1970 as a time value, if it is near enough. -/
def clip? (millis : Int) : Option Int :=
  if millis.natAbs ≤ maxTime.natAbs then some millis else none

/-- The time value of the midnight of a day. A day that its month lacks is counted on into the
months after it.
-/
def midnight? (date : Date) : Option Int :=
  clip? (date.dayNumber * millisPerDay)

/-- The time value at the same month, day of the month and time of day of another year. What is no
time value counts as the start of 1970.
-/
def inYear? (time? : Option Int) (year : Int) : Option Int :=
  let time := time?.getD 0
  let date := { ofTime time with year }
  clip? (date.dayNumber * millisPerDay + time % millisPerDay)

/-- Whether three numbers name a day. The day is first looked up in the year 2000, in which no month
is shorter than in any other year, and then moved to its own year: it is on the calendar if this
changes neither the month nor the day.
-/
def isOnCalendar (year month day : Int) : Bool :=
  if month < 1 || 12 < month || day < 1 then false
  else
    match inYear? (midnight? ⟨2000, month, day⟩) year with
    | none => false
    | some time => (ofTime time).month = month && (ofTime time).day = day

/-- The date with these fields, if they name a day whose midnight is a time value. -/
def make? (year month day : Int) : Option Date :=
  if isOnCalendar year month day then some ⟨year, month, day⟩ else none

/-- A text filled up with zeros from the left to at least `width` characters. -/
def padded (width : Nat) (text : String) : String :=
  String.ofList (List.replicate (width - text.length) '0') ++ text

/-- A year with at least four digits and a minus sign if it is negative. -/
def yearText (year : Int) : String :=
  if year < 0 then "-" ++ padded 4 (toString year.natAbs)
  else padded 4 (toString year)

/-- The ISO text of a date, such as `2024-02-29`. -/
def text (date : Date) : String :=
  yearText date.year ++ "-" ++ padded 2 (toString date.month) ++ "-"
    ++ padded 2 (toString date.day)

/-- The year of a time stamp: four digits from 0 to 9999, six digits and a sign otherwise. -/
def stampYear (year : Int) : String :=
  if year < 0 then "-" ++ padded 6 (toString year.natAbs)
  else if year ≤ 9999 then padded 4 (toString year)
  else "+" ++ padded 6 (toString year)

/-- The time stamp of a time value, to the millisecond and in universal time. -/
def stamp (millis : Int) : String :=
  let date := ofTime millis
  let rest := (millis % millisPerDay).toNat
  stampYear date.year ++ "-" ++ padded 2 (toString date.month) ++ "-"
    ++ padded 2 (toString date.day) ++ "T" ++ padded 2 (toString (rest / 3600000)) ++ ":"
    ++ padded 2 (toString (rest / 60000 % 60)) ++ ":"
    ++ padded 2 (toString (rest / 1000 % 60)) ++ "." ++ padded 3 (toString (rest % 1000))
    ++ "Z"

end Date

end Stencil
