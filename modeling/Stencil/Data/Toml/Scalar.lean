import Stencil.Calendar
import Stencil.Number.Literal
import Stencil.Plain
import Stencil.Text.Search

/-!
TOML values that are written without quotes or brackets: booleans, numbers, dates and times. A
local date becomes the time of its midnight, every other date or time its normalized text.
-/

namespace Stencil.Data.Toml

/-- The digits of a number, if single underscores stand only between two of them. -/
def joinDigits? (isDigit : Char → Bool) (text : List Char) : Option (List Char) :=
  let groups := Text.splitOn '_' text
  if groups.all fun group => !group.isEmpty && group.all isDigit then some groups.flatten
  else none

/-- The letters that mark a base other than ten, after a zero. -/
def bases : List (Char × Nat) :=
  [('x', 16), ('o', 8), ('b', 2)]

/-- An integer as plain data: a number as long as it is a safe one. -/
def integerData (n : Int) : Plain :=
  if n.natAbs ≤ Number.maxSafe then .number (Number.ofInt n) else .integer n

/-- Whether digits start with a zero that is not the only one. -/
def hasLeadingZero (digits : List Char) : Bool :=
  digits.head? == some '0' && digits.length > 1

/-- An integer: digits of base ten with an optional sign, or of a marked base without one. -/
def integer? (text : List Char) : Option Plain :=
  match text with
  | '0' :: mark :: digits =>
    match bases.lookup mark with
    | some base => do
      let digits ← joinDigits? (fun c => (Number.digitValue? c).isSome) digits
      let n ← Number.natOfDigits? base digits
      some (integerData n)
    | none => none
  | _ => do
    let (negative, digits) := Number.splitSign text
    let digits ← joinDigits? Char.isDigit digits
    if hasLeadingZero digits then none
    else
      let n ← Number.natOfDigits? 10 digits
      some (integerData (if negative then -(n : Int) else n))

/-- The digits of a run that may be signed. -/
def signedDigits? (text : List Char) : Option (List Char) := do
  let (negative, digits) := Number.splitSign text
  let digits ← joinDigits? Char.isDigit digits
  some (if negative then '-' :: digits else digits)

/-- A number with a fraction or an exponent. -/
def float? (text : List Char) : Option Plain := do
  let mantissa := text.takeWhile fun c => c != 'e' && c != 'E'
  let exponent ←
    match text.drop mantissa.length with
    | [] => some ['0']
    | _ :: digits => signedDigits? digits
  let whole := mantissa.takeWhile (· != '.')
  let fraction ←
    match mantissa.drop whole.length with
    | [] => some []
    | _ :: digits => joinDigits? Char.isDigit digits
  let whole ← signedDigits? whole
  if hasLeadingZero (Number.splitSign whole).2 then none
  else
    let x ← Number.ofLiteral? (whole ++ '.' :: fraction ++ 'e' :: exponent)
    some (.number x)

/-- The words that are values. -/
def words : List (List Char × Plain) :=
  [("true".toList, .boolean true), ("false".toList, .boolean false),
    ("inf".toList, .number (.infinity false)), ("+inf".toList, .number (.infinity false)),
    ("-inf".toList, .number (.infinity true)), ("nan".toList, .number .nan),
    ("+nan".toList, .number .nan), ("-nan".toList, .number .nan)]

/-- The number spelled by exactly `count` digits at the start of a text. -/
def fixedDigits? (count : Nat) (text : List Char) : Option (Nat × List Char) :=
  let digits := text.take count
  if digits.length = count && digits.all Char.isDigit then
    (Number.natOfDigits? 10 digits).map fun n => (n, text.drop count)
  else none

/-- A number of exactly `count` digits after a given character. -/
def fixedAfter? (mark : Char) (count : Nat) : List Char → Option (Nat × List Char)
  | c :: rest => if c = mark then fixedDigits? count rest else none
  | [] => none

/-- A date whose day is counted on into the next month if its month lacks it. -/
def rolledDate (year month day : Nat) : Date :=
  let last := Date.daysInMonth year month
  if (day : Int) ≤ last then ⟨year, month, day⟩ else ⟨year, month + 1, day - last⟩

/-- The year that two digits stand for. -/
def fullYear (digits : Nat) : Nat :=
  if digits < 50 then 2000 + digits else 1900 + digits

/-- The date of the numbers between hyphens, and whether they are year, month and day. Otherwise
they may be month, day and the last two digits of the year.
-/
def dateOf? (first second third : Nat) : Option (Date × Bool) :=
  let isMonth (n : Nat) : Bool := 1 ≤ n && n ≤ 12
  let isDay (n : Nat) : Bool := 1 ≤ n && n ≤ 31
  if isMonth second && isDay third then some (rolledDate first second third, true)
  else if isMonth first && isDay second then
    some (rolledDate (fullYear third) first second, false)
  else none

/-- A date at the start of a text, and whether a time may follow it. -/
def date? (text : List Char) : Option (Date × Bool × List Char) := do
  let (first, text) ← fixedDigits? 4 text
  let (second, text) ← fixedAfter? '-' 2 text
  let (third, text) ← fixedAfter? '-' 2 text
  let (date, isUsual) ← dateOf? first second third
  some (date, isUsual, text)

/-- A time of day. -/
structure ClockTime where
  hour : Nat
  minute : Nat
  second : Nat
  millis : Nat
  deriving DecidableEq, Repr

/-- The text of a time of day. A fraction of zero milliseconds is dropped. -/
def ClockTime.text (time : ClockTime) : String :=
  let two (n : Nat) : String := Date.padded 2 (toString n)
  two time.hour ++ ":" ++ two time.minute ++ ":" ++ two time.second
    ++ if time.millis = 0 then "" else "." ++ Date.padded 3 (toString time.millis)

/-- The milliseconds since midnight. -/
def ClockTime.total (time : ClockTime) : Nat :=
  ((time.hour * 60 + time.minute) * 60 + time.second) * 1000 + time.millis

/-- The milliseconds of a fraction of a second, of any number of digits, cut off. -/
def millisOf? (digits : List Char) : Option Nat :=
  if digits.isEmpty then none
  else Number.natOfDigits? 10 ((digits ++ ['0', '0', '0']).take 3)

/-- The seconds and milliseconds of a time, which may be missing. -/
def seconds? (text : List Char) : Option (Nat × Nat × List Char) :=
  match fixedAfter? ':' 2 text with
  | none => if text.head? == some ':' then none else some (0, 0, text)
  | some (seconds, rest) =>
    if seconds > 59 then none
    else
      match rest with
      | '.' :: rest =>
        let digits := rest.takeWhile Char.isDigit
        (millisOf? digits).map fun millis => (seconds, millis, rest.drop digits.length)
      | _ => some (seconds, 0, rest)

/-- A time at the start of a text. -/
def time? (text : List Char) : Option (ClockTime × List Char) := do
  let (hour, rest) ← fixedDigits? 2 text
  let (minute, rest) ← fixedAfter? ':' 2 rest
  if hour > 23 || minute > 59 then none
  else
    let (second, millis, rest) ← seconds? rest
    some (⟨hour, minute, second, millis⟩, rest)

/-- A time of day with nothing after it. -/
def localTime? (text : List Char) : Option Plain := do
  let (time, rest) ← time? text
  if rest.isEmpty then some (.text time.text) else none

/-- The milliseconds of minutes. -/
def millisOfMinutes (minutes : Int) : Int :=
  minutes * 60000

/-- The text of a date and time with an offset that has no colon. The last six characters are
taken for the offset, which begins with a digit then: its hours are the sign and the first digit
after it, and the time is written with that offset.
-/
def shiftedText (millis : Int) (isEast : Bool) (hour minute : Nat) (last : List Char) : String :=
  let signed (n : Nat) : Int := if isEast then n else -(n : Int)
  let universal := millis - millisOfMinutes (signed (60 * hour + minute))
  let shown := universal + millisOfMinutes (signed (60 * (hour / 10)) + minute)
  String.ofList (Date.stamp shown).toList.dropLast ++ String.ofList last

/-- The text of a date and time with what follows them: an offset, or nothing. -/
def zonedText? (date : Date) (time : ClockTime) (last : List Char) : List Char → Option String
  | [] => some (date.text ++ "T" ++ time.text)
  | ['Z'] => some (date.text ++ "T" ++ time.text ++ "Z")
  | ['z'] => some (date.text ++ "T" ++ time.text ++ "Z")
  | sign :: digits => do
    let (hour, rest) ← fixedDigits? 2 digits
    let hasColon := rest.head? == some ':'
    let (minute, rest) ← fixedDigits? 2 (if hasColon then rest.drop 1 else rest)
    if (sign == '+' || sign == '-') && hour ≤ 23 && minute ≤ 59 && rest.isEmpty then
      if hasColon then some (date.text ++ "T" ++ time.text ++ String.ofList (sign :: digits))
      else
        let millis := date.dayNumber * Date.millisPerDay + time.total
        some (shiftedText millis (sign == '+') hour minute last)
    else none

/-- A date alone, or a date with a time and an optional offset. -/
def dateTime? (text : List Char) : Option Plain := do
  let (date, isUsual, rest) ← date? text
  match rest with
  | [] => some (.time (some (date.dayNumber * Date.millisPerDay)))
  | separator :: rest =>
    if isUsual && (separator == 'T' || separator == 't' || separator == ' ') then
      let (time, rest) ← time? rest
      (zonedText? date time (text.drop (text.length - 6)) rest).map .text
    else none

/-- The value of a text without quotes. -/
def bareValue? (text : List Char) : Option Plain :=
  words.lookup text
    <|> integer? text
    <|> float? text
    <|> dateTime? text
    <|> localTime? text

end Stencil.Data.Toml
