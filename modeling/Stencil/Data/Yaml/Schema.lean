import Stencil.Data.Yaml.Directive
import Stencil.Data.Yaml.Timestamp
import Stencil.Plain
import Stencil.Text.Base64

/-!
The values of scalars. A plain scalar has the value of the first rule that knows its text; a tag
names the rules that are asked. What no rule knows is a text.
-/

namespace Stencil.Data.Yaml

/-- The forms in which numbers may be spelled, besides the usual one. -/
inductive Form where
  | usual
  | binary
  | octal
  | hexadecimal
  | exponent
  | sexagesimal
  deriving DecidableEq, Repr, Inhabited

/-- The value of a scalar, and how a number was spelled. `places` counts the digits after the
point where they end in a zero.
-/
structure Reading where
  value : Plain
  form : Form := .usual
  places : Nat := 0
  deriving Inhabited, Repr

/-- A rule on the scalars that have a tag. -/
structure Rule where
  tag : String
  read? : List Char → Option Reading

namespace Schema

/-- A rule on some words that stand for a value. -/
def words (tag : String) (value : Plain) (texts : List String) : Rule where
  tag := knownTag tag
  read? text := if texts.contains (String.ofList text) then some { value } else none

/-- The rule on nothing. -/
def nothing : Rule :=
  words "null" .null ["", "~", "null", "Null", "NULL"]

/-- The value of digits in a base after their start, with a sign. No digits are no number. -/
def wholeOf (negative : Bool) (base : Nat) (digits : List Char) : Plain :=
  match Number.natOfDigits? base digits with
  | some n => .number (Number.ofRatio negative n 1)
  | none => .number .nan

/-- Whether a character is a digit of a base. -/
def isDigit (base : Nat) (c : Char) : Bool :=
  (Number.digitValue? c).any (· < base)

/-- A rule on whole numbers in a base whose digits follow some characters. Where `isLoose`
holds, a sign may stand before those, and underscores among the digits.
-/
def whole (form : Form) (base : Nat) (start : List Char) (isLoose : Bool) : Rule where
  tag := knownTag "int"
  read? text :=
    let (negative, unsigned) := if isLoose then Number.splitSign text else (false, text)
    let digits := unsigned.drop start.length
    let isNumeral := digits.all fun c => isDigit base c || (isLoose && c == '_')
    if start.isPrefixOf unsigned && !digits.isEmpty && isNumeral then
      some { value := wholeOf negative base (digits.filter (· != '_')), form }
    else none

/-- A rule on decimal whole numbers. They start with a digit. -/
def decimal (isLoose : Bool) : Rule where
  tag := knownTag "int"
  read? text :=
    let (negative, digits) := Number.splitSign text
    let isNumeral := digits.all fun c => c.isDigit || (isLoose && c == '_')
    if digits.head?.any Char.isDigit && isNumeral then
      some { value := wholeOf negative 10 (digits.filter (· != '_')) }
    else none

/-- The rule on infinities and on what is no number. -/
def infinite : Rule where
  tag := knownTag "float"
  read? text :=
    let (negative, unsigned) := Number.splitSign text
    if [".inf", ".Inf", ".INF"].contains (String.ofList unsigned) then
      some { value := .number (.infinity negative) }
    else if [".nan", ".NaN", ".NAN"].contains (String.ofList text) then
      some { value := .number .nan }
    else none

/-- The parts of a decimal: sign, digits, whether there is a point, digits after it, and the
rest. Where `isLoose` holds, underscores may stand among the digits, though not first.
-/
def decimalParts (isLoose : Bool) (text : List Char)
    : Bool × List Char × Bool × List Char × List Char :=
  let (negative, text) := Number.splitSign text
  let isDigit (c : Char) : Bool := c.isDigit || (isLoose && c == '_')
  let digits := if text.head?.any Char.isDigit then text.takeWhile isDigit else []
  match text.drop digits.length with
  | '.' :: rest =>
    let fraction := rest.takeWhile isDigit
    (negative, digits, true, fraction, rest.drop fraction.length)
  | rest => (negative, digits, false, [], rest)

/-- Whether digits are enough for a number: some before or after the point, where that matters. -/
def isEnough (isLoose : Bool) (digits fraction : List Char) : Bool :=
  isLoose || !digits.isEmpty || !fraction.isEmpty

/-- The number that the characters of a decimal spell. -/
def decimalOf (text : List Char) : Plain :=
  .number ((Number.ofLiteral? (text.filter (· != '_'))).getD .nan)

/-- A rule on decimals with an exponent. -/
def scientific (isLoose : Bool) : Rule where
  tag := knownTag "float"
  read? text :=
    let (_, digits, _, fraction, rest) := decimalParts isLoose text
    match rest with
    | [] => none
    | letter :: exponent =>
      let (_, power) := Number.splitSign exponent
      if (letter == 'e' || letter == 'E') && !power.isEmpty && power.all Char.isDigit
          && isEnough isLoose digits fraction then
        some { value := decimalOf text, form := .exponent }
      else none

/-- A rule on decimals with a point. -/
def pointed (isLoose : Bool) : Rule where
  tag := knownTag "float"
  read? text :=
    let (_, digits, hasPoint, fraction, rest) := decimalParts isLoose text
    if hasPoint && rest.isEmpty && isEnough isLoose digits fraction then
      let places := fraction.filter (· != '_')
      let endsInZero := places.getLast? == some '0'
      some { value := decimalOf text, places := if endsInZero then places.length else 0 }
    else none

/-- The parts of a number to the base sixty after the first one, each below sixty. -/
def sixtieths? (parts : List (List Char)) : Option (List Nat) :=
  parts.mapM fun part =>
    let n? := if part.length ≤ 2 then Number.natOfDigits? 10 part else none
    n?.filter fun n => part.all Char.isDigit && n < 60

/-- The value of a number to the base sixty, and of a fraction after its last part. -/
def sexagesimalOf (negative : Bool) (first : Nat) (parts : List Nat) (fraction : List Char)
    : Plain :=
  let before := parts.dropLast.foldl (fun total part => 60 * total + part) first
  let last := toString (parts.getLastD 0) ++ "." ++ String.ofList fraction
  match Number.ofText last.toList with
  | .finite _ magnitude =>
    let unit := Nat.pow 2 1074
    .number (Number.ofRatio negative (60 * before * unit + magnitude.scaled) unit)
  | _ => .number .nan

/-- A rule on numbers to the base sixty, with a fraction or without one. -/
def sexagesimal (hasFraction : Bool) : Rule where
  tag := knownTag (if hasFraction then "float" else "int")
  read? text := do
    let (negative, unsigned) := Number.splitSign text
    let body := unsigned.takeWhile (· != '.')
    let rest := unsigned.drop body.length
    let fraction := (rest.drop 1).filter (· != '_')
    if (rest.head? == some '.') != hasFraction || !fraction.all Char.isDigit then failure
    match Text.splitOn ':' body with
    | first :: second :: parts =>
      if !(first.head?.any Char.isDigit && first.all fun c => c.isDigit || c == '_') then failure
      let first ← Number.natOfDigits? 10 (first.filter (· != '_'))
      let parts ← sixtieths? (second :: parts)
      some { value := sexagesimalOf negative first parts fraction, form := .sexagesimal }
    | _ => none

/-- The rule on time stamps. -/
def timestamp : Rule where
  tag := knownTag "timestamp"
  read? text := (Timestamp.read? text).map fun millis => { value := .time (some millis) }

/-- What a merge key stands for. -/
def mergeMark : Plain :=
  .foreign (.symbol "<<")

/-- The rules of a version on plain scalars, in the order in which they are asked. -/
def rules : Version → List Rule
  | .core =>
    [nothing, words "bool" (.boolean true) ["true", "True", "TRUE"],
      words "bool" (.boolean false) ["false", "False", "FALSE"],
      whole .octal 8 ['0', 'o'] false, decimal false, whole .hexadecimal 16 ['0', 'x'] false,
      infinite, scientific false, pointed false]
  | .legacy =>
    [nothing,
      words "bool" (.boolean true)
        ["Y", "y", "Yes", "yes", "YES", "True", "true", "TRUE", "On", "on", "ON"],
      words "bool" (.boolean false)
        ["N", "n", "No", "no", "NO", "False", "false", "FALSE", "Off", "off", "OFF"],
      whole .binary 2 ['0', 'b'] true, whole .octal 8 ['0'] true, decimal true,
      whole .hexadecimal 16 ['0', 'x'] true, infinite, scientific true, pointed true,
      sexagesimal false, sexagesimal true, timestamp]

/-- The value of a plain scalar without a tag. -/
def readPlain (version : Version) (isKey : Bool) (text : List Char) : Reading :=
  if version == .legacy && isKey && text == ['<', '<'] then { value := mergeMark }
  else
    ((rules version).findSome? fun rule => rule.read? text).getD
      { value := .text (String.ofList text) }

/-- The value of a scalar with a tag that names no rule on plain scalars, if the tag is known. -/
def readKnown? (version : Version) (tag : String) (text : List Char) : Option (Option Reading) :=
  if tag = knownTag "binary" then some (some { value := .bytes (Text.Base64.decode text) })
  else if tag = knownTag "merge" && (version == .core || text == ['<', '<']) then
    some (some { value := mergeMark })
  else if tag = knownTag "timestamp" && version == .core then some (timestamp.read? text)
  else none

/-- The value of a scalar with a tag; nothing if the tag asks for another text. -/
def readTagged (version : Version) (tag : String) (text : List Char) : Option Reading :=
  let asked := (rules version).filter (·.tag == tag)
  match asked.findSome? fun rule => rule.read? text with
  | some reading => some reading
  | none =>
    (readKnown? version tag text).getD (some { value := .text (String.ofList text) })

end Schema

end Stencil.Data.Yaml
