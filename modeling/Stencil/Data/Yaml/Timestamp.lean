import Stencil.Calendar
import Stencil.Number.Literal

/-!
Time stamps: a date, a time of day and an offset from universal time, of which the last two or
the last one may be missing.
-/

namespace Stencil.Data.Yaml.Timestamp

/-- The number of up to `most` digits at the start of a text, if there are `least` of them. -/
def digits? (least most : Nat) (text : List Char) : Option (Nat × List Char) :=
  let digits := (text.take most).takeWhile Char.isDigit
  if digits.length < least then none
  else (Number.natOfDigits? 10 digits).map fun n => (n, text.drop digits.length)

/-- The text after a character that it starts with. -/
def after? (c : Char) : List Char → Option (List Char)
  | [] => none
  | first :: rest => if first = c then some rest else none

/-- Whether a character is a blank. -/
def isBlank (c : Char) : Bool :=
  c == ' ' || c == '\t'

/-- The milliseconds that the fraction of a second comes to, and the text after it. -/
def fraction : List Char → Nat × List Char
  | '.' :: rest =>
    let digits := rest.takeWhile Char.isDigit
    if digits.isEmpty then (0, '.' :: rest)
    else
      let millis := (Number.natOfDigits? 10 ((digits ++ ['0', '0']).take 3)).getD 0
      (millis, rest.drop digits.length)
  | text => (0, text)

/-- The minutes of an offset that is spelled by one or two digits and perhaps by two digits of
minutes. Less than thirty counts as hours.
-/
def offset? : List Char → Option Int
  | [] => none
  | ['Z'] => some 0
  | sign :: rest => do
    if sign != '+' && sign != '-' then failure
    let count := (rest.takeWhile Char.isDigit).length
    let (first, rest) ← digits? 1 2 rest
    if count = 2 && first ≥ 30 then failure
    let total ←
      match rest with
      | [] => some first
      | ':' :: minutes => do
        let (minutes, rest) ← digits? 2 2 minutes
        if rest.isEmpty then some (60 * first + minutes) else none
      | _ => none
    let total := if total < 30 then 60 * total else total
    some (if sign = '-' then -(total : Int) else total)

/-- The text after the mark between a date and a time of day. -/
def afterMark? (text : List Char) : Option (List Char) :=
  match text with
  | 'T' :: rest => some rest
  | 't' :: rest => some rest
  | c :: rest => if isBlank c then some (rest.dropWhile isBlank) else none
  | [] => none

/-- The milliseconds that a time of day with its offset is after midnight. -/
def timeOfDay? (text : List Char) : Option Int := do
  let (hour, rest) ← digits? 1 2 (← afterMark? text)
  let (minute, rest) ← digits? 1 2 (← after? ':' rest)
  let (second, rest) ← digits? 1 2 (← after? ':' rest)
  let (millis, rest) := fraction rest
  let offset ← if rest.isEmpty then some 0 else offset? (rest.dropWhile isBlank)
  let seconds : Int := 3600 * hour + 60 * minute + second
  some (1000 * (seconds - 60 * offset) + millis)

/-- The day count of the day of a month, which may be past the end of the month, as months may
be past the end of the year. Years below one hundred are those of the twentieth century.
-/
def dayNumber (year month day : Nat) : Int :=
  let year := if year < 100 then 1900 + year else year
  let months : Int := 12 * (year : Int) + month - 1
  Date.dayNumber ⟨months / 12, months % 12 + 1, day⟩

/-- The time value that a time stamp spells. -/
def read? (text : List Char) : Option Int := do
  let (year, rest) ← digits? 4 4 text
  let (month, rest) ← digits? 1 2 (← after? '-' rest)
  let (day, rest) ← digits? 1 2 (← after? '-' rest)
  let millis ← if rest.isEmpty then some 0 else timeOfDay? rest
  some (dayNumber year month day * Date.millisPerDay + millis)

/-- The shortest time stamp of a time value. -/
def text (millis : Int) : String :=
  let stamp := Date.stamp millis
  let seconds := (stamp.toList.dropLast.take (stamp.length - 5))
  if millis % 1000 ≠ 0 then stamp
  else if millis % Date.millisPerDay = 0 then
    String.ofList (seconds.take (seconds.length - "T00:00:00".length))
  else String.ofList seconds

end Stencil.Data.Yaml.Timestamp
