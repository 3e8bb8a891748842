import Stencil.Data.Fault
import Stencil.Number.Literal
import Stencil.Plain

/-!
Reading JSON texts. The grammar is the strict one: no comments, no trailing commas, no leading
zeros, and nothing but blanks around the one value. A repeated key keeps its last value.
-/

namespace Stencil.Json

open Stencil.Data (Fault Reader fail)

/-- The blanks of JSON. -/
def isBlank (c : Char) : Bool :=
  c == ' ' || c == '\t' || c == '\n' || c == '\r'

/-- A text without its leading blanks. -/
def skipBlanks (text : List Char) : List Char :=
  text.dropWhile isBlank

/-- The character that stands for a unit of 16 bits which is half of no pair. A text is made of
characters, so it has none for the unit itself.
-/
def unpaired : Char := '\ufffd'

/-- The four hexadecimal digits of an escape. -/
def readUnit (text : List Char) : Except Fault (Nat × List Char) :=
  match Data.hexDigits? Number.digitValue? 4 text with
  | some found => .ok found
  | none => fail "four hexadecimal digits expected" text

/-- The character of an escape by number, after `\u`. A high surrogate is joined with the low
one that an escape right after it gives.
-/
def readNumbered (text : List Char) : Except Fault (Char × List Char) := do
  let (unit, rest) ← readUnit text
  if 0xD800 ≤ unit && unit < 0xDC00 then
    match rest with
    | '\\' :: 'u' :: more =>
      let (low, after) ← readUnit more
      if 0xDC00 ≤ low && low < 0xE000 then
        .ok (Char.ofNat (0x10000 + (unit - 0xD800) * 0x400 + (low - 0xDC00)), after)
      else .ok (unpaired, rest)
    | _ => .ok (unpaired, rest)
  else if 0xDC00 ≤ unit && unit < 0xE000 then .ok (unpaired, rest)
  else .ok (Char.ofNat unit, rest)

/-- The character of an escape by letter. -/
def letterEscape? : Char → Option Char
  | '"' => some '"'
  | '\\' => some '\\'
  | '/' => some '/'
  | 'b' => some '\x08'
  | 'f' => some '\x0c'
  | 'n' => some '\n'
  | 'r' => some '\r'
  | 't' => some '\t'
  | _ => none

/-- The rest of a string after its opening quote, with the characters read so far in reverse.
The fuel bounds the number of characters.
-/
def readString : Nat → List Char → Reader String
  | 0, _, text => fail "unterminated string" text
  | fuel + 1, found, text =>
    match text with
    | [] => fail "unterminated string" text
    | '"' :: rest => .ok (String.ofList found.reverse, rest)
    | '\\' :: 'u' :: rest =>
      match readNumbered rest with
      | .error fault => .error fault
      | .ok (c, rest) => readString fuel (c :: found) rest
    | '\\' :: letter :: rest =>
      match letterEscape? letter with
      | some c => readString fuel (c :: found) rest
      | none => fail "unknown escape" text
    | c :: rest =>
      if c.toNat < 0x20 || c == '\\' then fail "control character in string" text
      else readString fuel (c :: found) rest

/-- The characters that can occur in a number. -/
def isNumberChar (c : Char) : Bool :=
  c.isDigit || c == '-' || c == '+' || c == '.' || c == 'e' || c == 'E'

/-- Whether a text is an exponent or empty. -/
def isExponent : List Char → Bool
  | [] => true
  | c :: rest =>
    let digits :=
      match rest with
      | '+' :: digits => digits
      | '-' :: digits => digits
      | digits => digits
    (c == 'e' || c == 'E') && !digits.isEmpty && digits.all Char.isDigit

/-- Whether a text is a JSON number. -/
def isNumber (text : List Char) : Bool :=
  let text :=
    match text with
    | '-' :: rest => rest
    | _ => text
  let whole := text.takeWhile Char.isDigit
  let rest := text.drop whole.length
  let wholeOk := whole == ['0'] || (whole.head?.any (· != '0'))
  wholeOk &&
    match rest with
    | '.' :: rest =>
      let fraction := rest.takeWhile Char.isDigit
      !fraction.isEmpty && isExponent (rest.drop fraction.length)
    | _ => isExponent rest

/-- A number at the start of a text. -/
def readNumber (text : List Char) : Except Fault (Plain × List Char) :=
  let literal := text.takeWhile isNumberChar
  if isNumber literal then
    match Number.ofLiteral? literal with
    | some x => .ok (.number x, text.drop literal.length)
    | none => fail "number expected" text
  else fail "value expected" text

/-- The words that are values. -/
def words : List (List Char × Plain) :=
  [("true".toList, .boolean true), ("false".toList, .boolean false), ("null".toList, .null)]

/-- A word at the start of a text, or a number. -/
def readBare (text : List Char) : Except Fault (Plain × List Char) :=
  match words.find? fun word => word.1.isPrefixOf text with
  | some (word, value) => .ok (value, text.drop word.length)
  | none => readNumber text

/-- A key and the colon after it. -/
def readKey (fuel : Nat) (text : List Char) : Except Fault (String × List Char) :=
  match skipBlanks text with
  | '"' :: rest =>
    match readString fuel [] rest with
    | .error fault => .error fault
    | .ok (key, rest) =>
      match skipBlanks rest with
      | ':' :: rest => .ok (key, rest)
      | rest => fail "colon expected" rest
  | rest => fail "key expected" rest

mutual

/-- A value, with blanks before it. The fuel bounds the number of nested and following
values.
-/
def readValue : Nat → Reader Plain
  | 0, text => fail "value too long" text
  | fuel + 1, text =>
    match skipBlanks text with
    | '\x7b' :: rest =>
      match skipBlanks rest with
      | '\x7d' :: rest => .ok (.record [], rest)
      | rest => readMembers fuel [] rest
    | '[' :: rest =>
      match skipBlanks rest with
      | ']' :: rest => .ok (.list [], rest)
      | rest => readItems fuel [] rest
    | '"' :: rest =>
      match readString (rest.length + 1) [] rest with
      | .error fault => .error fault
      | .ok (s, rest) => .ok (.text s, rest)
    | rest => readBare rest

/-- The items of a list up to its end, after those already found in reverse. -/
def readItems : Nat → List Plain → Reader Plain
  | 0, _, text => fail "list too long" text
  | fuel + 1, found, text =>
    match readValue fuel text with
    | .error fault => .error fault
    | .ok (item, rest) =>
      match skipBlanks rest with
      | ',' :: rest => readItems fuel (item :: found) rest
      | ']' :: rest => .ok (.list (item :: found).reverse, rest)
      | rest => fail "comma or end of list expected" rest

/-- The members of a record up to its end, after those already found. -/
def readMembers : Nat → List (String × Plain) → Reader Plain
  | 0, _, text => fail "record too long" text
  | fuel + 1, found, text =>
    match readKey (text.length + 1) text with
    | .error fault => .error fault
    | .ok (key, rest) =>
      match readValue fuel rest with
      | .error fault => .error fault
      | .ok (value, rest) =>
        let found := Plain.put key value found
        match skipBlanks rest with
        | ',' :: rest => readMembers fuel found rest
        | '\x7d' :: rest => .ok (.record found, rest)
        | rest => fail "comma or end of record expected" rest

end

/-- The plain data of a JSON text. -/
def read (text : List Char) : Except Fault Plain :=
  match readValue (2 * text.length + 2) text with
  | .error fault => .error fault
  | .ok (value, rest) =>
    match skipBlanks rest with
    | [] => .ok value
    | rest => fail "end of text expected" rest

end Stencil.Json
