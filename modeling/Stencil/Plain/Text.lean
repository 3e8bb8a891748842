import Stencil.Calendar
import Stencil.Files.Encoding
import Stencil.Plain

/-!
The text that plain data have where only a text will do, such as under a key. A list is joined
from the texts of its items; a record has a text of its own only as far as it says so.
-/

namespace Stencil

namespace Date

/-- The names of the days of a week, from the one of 1970-01-01 on. -/
def weekdays : List String :=
  ["Thu", "Fri", "Sat", "Sun", "Mon", "Tue", "Wed"]

/-- The names of the months. -/
def monthNames : List String :=
  ["Jan", "Feb", "Mar", "Apr", "May", "Jun", "Jul", "Aug", "Sep", "Oct", "Nov", "Dec"]

/-- The spelled-out text of a time value, to the second and in universal time. -/
def longText (millis : Int) : String :=
  let day := millis / millisPerDay
  let date := ofDayNumber day
  let rest := (millis % millisPerDay).toNat
  weekdays.getD (day % 7).toNat "" ++ " "
    ++ monthNames.getD (date.month - 1).toNat "" ++ " "
    ++ padded 2 (toString date.day) ++ " " ++ yearText date.year ++ " "
    ++ padded 2 (toString (rest / 3600000)) ++ ":"
    ++ padded 2 (toString (rest / 60000 % 60)) ++ ":"
    ++ padded 2 (toString (rest / 1000 % 60)) ++ " GMT+0000 (Coordinated Universal Time)"

end Date

/-- Why data have no text. -/
inductive NoText where
  /-- A list holds a symbol. -/
  | symbol
  /-- An object has no text and no number. -/
  | object
  deriving DecidableEq, Repr, Inhabited

/-- The complaint about data without a text. -/
def NoText.message : NoText → String
  | symbol => "Cannot convert a Symbol value to a string"
  | object => "Cannot convert object to primitive value"

namespace Plain

/-- The text of a foreign datum. -/
def foreignText : Foreign → Except NoText String
  | .function source => .ok source
  | .symbol description => .ok ("Symbol(" ++ description ++ ")")
  | .set => .ok "[object Set]"
  | .object _ => .ok "[object Object]"
  | .bare => .error .object

/-- The text of a record: what its function `toString` or else `valueOf` gives, if it has
such a member.
-/
def recordText (members : List (String × Plain)) : Except NoText String :=
  match members.lookup "toString", members.lookup "valueOf" with
  | none, _ => .ok "[object Object]"
  | some (.foreign (.function _)), _ => .ok "0"
  | some _, some (.foreign (.function _)) => .ok "0"
  | some _, _ => .error .object

mutual

/-- The text of plain data. -/
def asText : Plain → Except NoText String
  | .null => .ok "null"
  | .absent => .ok "undefined"
  | .boolean b => .ok (if b then "true" else "false")
  | .number x => .ok x.text
  | .integer n => .ok (toString n)
  | .text s => .ok s
  | .time none => .ok "Invalid Date"
  | .time (some millis) => .ok (Date.longText millis)
  | .bytes octets => .ok (Files.Encoding.decode octets)
  | .foreign kind => foreignText kind
  | .list items => (itemTexts items).map ",".intercalate
  | .record members => recordText members
  | .map _ => .ok "[object Map]"

/-- The texts of list items. Nothing and symbols are special among them: nothing is empty, and
symbols have no text.
-/
def itemTexts : List Plain → Except NoText (List String)
  | [] => .ok []
  | item :: items => do
    let text ←
      match item with
      | .null => .ok ""
      | .absent => .ok ""
      | .foreign (.symbol _) => .error .symbol
      | item => asText item
    let texts ← itemTexts items
    .ok (text :: texts)

end

end Plain

end Stencil
