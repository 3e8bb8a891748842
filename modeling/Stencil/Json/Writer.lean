import Stencil.Calendar
import Stencil.Plain

/-!
Writing plain data as JSON. Members without a JSON form are left out of records and written as
null in lists; integers are written as texts, so that no digit is lost. A record whose member
`toJSON` is a function stands for what the function gives, which is zero.
-/

namespace Stencil.Json

/-- How a JSON text is laid out: on one line, or with each item on a line of its own. -/
inductive Layout where
  | compact
  | indented
  deriving DecidableEq, Repr, Inhabited

/-- The character of a hexadecimal digit. -/
def hexChar (digit : Nat) : Char :=
  if digit < 10 then Char.ofNat ('0'.toNat + digit) else Char.ofNat ('a'.toNat + digit - 10)

/-- The characters that stand for a character inside a JSON string. -/
def escape (c : Char) : List Char :=
  if c == '"' then ['\\', '"']
  else if c == '\\' then ['\\', '\\']
  else if c == '\x08' then ['\\', 'b']
  else if c == '\t' then ['\\', 't']
  else if c == '\n' then ['\\', 'n']
  else if c == '\x0c' then ['\\', 'f']
  else if c == '\r' then ['\\', 'r']
  else if c.toNat < 0x20 then
    ['\\', 'u', '0', '0', hexChar (c.toNat / 16), hexChar (c.toNat % 16)]
  else [c]

/-- A text between quotes, escaped. -/
def quote (text : String) : String :=
  "\"" ++ String.ofList (text.toList.flatMap escape) ++ "\""

/-- A new line indented by `depth` steps. -/
def newLine (depth : Nat) : String :=
  String.ofList ('\n' :: List.replicate (2 * depth) ' ')

/-- Parts between brackets, with a comma between each two of them. -/
def block (layout : Layout) (depth : Nat) (opening closing : String) (parts : List String)
    : String :=
  match layout, parts with
  | _, [] => opening ++ closing
  | .compact, parts => opening ++ ",".intercalate parts ++ closing
  | .indented, parts =>
    opening ++ newLine (depth + 1) ++ ("," ++ newLine (depth + 1)).intercalate parts
      ++ newLine depth ++ closing

/-- The text between a key and its value. -/
def colon : Layout → String
  | .compact => ":"
  | .indented => ": "

/-- The text of a number; null for one that JSON has no text for. -/
def numberText : Number → String
  | .nan => "null"
  | .infinity _ => "null"
  | x => x.text

/-- The text of bytes: a record that names their kind and lists them. -/
def writeBytes (layout : Layout) (depth : Nat) (octets : List UInt8) : String :=
  let items := octets.map fun octet => toString octet.toNat
  block layout depth "\x7b" "\x7d"
    [quote "type" ++ colon layout ++ quote "Buffer",
      quote "data" ++ colon layout ++ block layout (depth + 1) "[" "]" items]

mutual

/-- The text of plain data at a depth of nesting; nothing for data without a JSON form. -/
def write? (layout : Layout) (depth : Nat) : Plain → Option String
  | .null => some "null"
  | .absent => none
  | .boolean b => some (if b then "true" else "false")
  | .number x => some (numberText x)
  | .integer n => some (quote (toString n))
  | .text s => some (quote s)
  | .time none => some "null"
  | .time (some millis) => some (quote (Date.stamp millis))
  | .bytes octets => some (writeBytes layout depth octets)
  | .foreign kind =>
    if kind.kind = "object" then some (block layout depth "\x7b" "\x7d" []) else none
  | .list items => some (block layout depth "[" "]" (writeItems layout (depth + 1) items))
  | .record members =>
    if members.lookup "toJSON" matches some (.foreign (.function _)) then some "0"
    else some (block layout depth "\x7b" "\x7d" (writeMembers layout (depth + 1) members))
  | .map _ => some (block layout depth "\x7b" "\x7d" [])

/-- The texts of list items. -/
def writeItems (layout : Layout) (depth : Nat) : List Plain → List String
  | [] => []
  | item :: items =>
    (write? layout depth item).getD "null" :: writeItems layout depth items

/-- The texts of record members that have a JSON form. -/
def writeMembers (layout : Layout) (depth : Nat) : List (String × Plain) → List String
  | [] => []
  | (key, value) :: members =>
    match write? layout depth value with
    | some text => (quote key ++ colon layout ++ text) :: writeMembers layout depth members
    | none => writeMembers layout depth members

end

/-- The JSON text of plain data; `null` for data without a JSON form. -/
def write (layout : Layout) (data : Plain) : String :=
  (write? layout 0 data).getD "null"

end Stencil.Json
