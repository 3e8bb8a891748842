import Stencil.Data.Fault
import Stencil.Number.Literal

/-!
The lexical level of TOML: blanks, comments, quoted texts and keys.
-/

namespace Stencil.Data.Toml

/-- Whether a character may not stand as it is in comments and quoted texts. -/
def isControl (c : Char) : Bool :=
  (c.toNat < 0x20 && c != '\t') || c.toNat == 0x7F

/-- A text without its leading spaces and tabs. -/
def skipSpaces (text : List Char) : List Char :=
  text.dropWhile fun c => c == ' ' || c == '\t'

/-- The text after a line end at its start. -/
def afterNewline? : List Char → Option (List Char)
  | '\n' :: rest => some rest
  | '\r' :: '\n' :: rest => some rest
  | _ => none

/-- Whether a line ends at the start of a text. -/
def atNewline (text : List Char) : Bool :=
  (afterNewline? text).isSome

/-- The text from the end of the current line on, inside a comment. -/
def skipComment : List Char → Except Fault (List Char)
  | [] => .ok []
  | c :: rest =>
    if atNewline (c :: rest) then .ok (c :: rest)
    else if isControl c then fail "control character in comment" (c :: rest)
    else skipComment rest

/-- The text after spaces and, at most, one comment: the rest of a line. -/
def skipLine (text : List Char) : Except Fault (List Char) :=
  match skipSpaces text with
  | '#' :: rest => skipComment rest
  | rest => .ok rest

/-- The text after spaces, comments and line ends. The fuel bounds the number of lines. -/
def skipVoid : Nat → List Char → Except Fault (List Char)
  | 0, text => .ok text
  | fuel + 1, text =>
    match skipLine text with
    | .error fault => .error fault
    | .ok rest =>
      match afterNewline? rest with
      | some rest => skipVoid fuel rest
      | none => .ok rest

/-- The text after spaces, comments and line ends. -/
def skipBlankLines (text : List Char) : Except Fault (List Char) :=
  skipVoid (text.length + 1) text

/-- A character given by its number, if there is one. -/
def charOf? (n : Nat) : Option Char :=
  if n < 0xD800 || (0xE000 ≤ n && n < 0x110000) then some (Char.ofNat n) else none

/-- A character given by hexadecimal digits. -/
def readHex (count : Nat) (text : List Char) : Except Fault (Char × List Char) :=
  match hexDigits? Number.digitValue? count text with
  | none => fail "hexadecimal digits expected" text
  | some (n, rest) =>
    match charOf? n with
    | some c => .ok (c, rest)
    | none => fail "no such character" text

/-- The characters that single letters stand for after a backslash. -/
def letterEscapes : List (Char × Char) :=
  [('b', '\x08'), ('t', '\t'), ('n', '\n'), ('f', '\x0c'), ('r', '\r'), ('e', '\x1b'),
    ('"', '"'), ('\\', '\\')]

/-- The character of an escape, after its backslash. -/
def readEscape : List Char → Except Fault (Char × List Char)
  | 'x' :: rest => readHex 2 rest
  | 'u' :: rest => readHex 4 rest
  | 'U' :: rest => readHex 8 rest
  | letter :: rest =>
    match letterEscapes.lookup letter with
    | some c => .ok (c, rest)
    | none => fail "unknown escape" (letter :: rest)
  | [] => fail "unterminated string" []

/-- A basic string on one line after its opening quote, with the characters read so far in
reverse.
-/
def readBasic : Nat → List Char → Reader String
  | 0, _, text => fail "unterminated string" text
  | fuel + 1, found, text =>
    match text with
    | [] => fail "unterminated string" text
    | '"' :: rest => .ok (String.ofList found.reverse, rest)
    | '\\' :: rest =>
      match readEscape rest with
      | .error fault => .error fault
      | .ok (c, rest) => readBasic fuel (c :: found) rest
    | c :: rest =>
      if isControl c then fail "control character in string" text
      else readBasic fuel (c :: found) rest

/-- A literal string on one line after its opening quote. -/
def readLiteral (text : List Char) : Except Fault (String × List Char) :=
  let body := text.takeWhile (· != '\'')
  match text.drop body.length with
  | _ :: rest =>
    if body.any isControl then fail "control character in string" text
    else .ok (String.ofList body, rest)
  | [] => fail "unterminated string" text

/-- The text after the line end that a backslash at the end of a line hides, together with
the blanks of the following lines; nothing if other characters follow the backslash.
-/
def afterHiddenLine? (text : List Char) : Option (List Char) :=
  let rest := skipSpaces text
  if atNewline rest then
    some (rest.dropWhile fun c => c == ' ' || c == '\t' || c == '\n' || c == '\r')
  else none

/-- How many of the quotes at the start of a text belong to the string that they end: a run
of three to five closes it, and those before the last three are part of it.
-/
def quotesBeforeEnd? (quote : Char) (text : List Char) : Option Nat :=
  let run := (text.take 5).takeWhile (· == quote)
  if run.length ≥ 3 then some (run.length - 3) else none

/-- The text after the quotes that end a string, where they directly follow a hidden line end:
all quotes of the run belong to the end.
-/
def afterEnd? (quote : Char) (text : List Char) : Option (List Char) :=
  (quotesBeforeEnd? quote text).map fun extra => text.drop (extra + 3)

/-- A string over several lines after its opening quotes. In a basic one backslashes escape;
in a literal one they stand for themselves.
-/
def readLong (quote : Char) (escapes : Bool) : Nat → List Char → Reader String
  | 0, _, text => fail "unterminated string" text
  | fuel + 1, found, text =>
    match quotesBeforeEnd? quote text with
    | some extra =>
      .ok (String.ofList (List.replicate extra quote ++ found).reverse, text.drop (extra + 3))
    | none =>
      match text with
      | [] => fail "unterminated string" text
      | c :: rest =>
        if c == '\\' && escapes then
          match afterHiddenLine? rest with
          | some rest =>
            match afterEnd? quote rest with
            | some rest => .ok (String.ofList found.reverse, rest)
            | none => readLong quote escapes fuel found rest
          | none =>
            match readEscape rest with
            | .error fault => .error fault
            | .ok (c, rest) => readLong quote escapes fuel (c :: found) rest
        else if atNewline text then
          match text with
          | '\r' :: '\n' :: rest => readLong quote escapes fuel ('\n' :: '\r' :: found) rest
          | _ => readLong quote escapes fuel (c :: found) rest
        else if isControl c then fail "control character in string" text
        else readLong quote escapes fuel (c :: found) rest

/-- The text after a line end that directly follows the opening quotes. -/
def skipFirstNewline (text : List Char) : List Char :=
  (afterNewline? text).getD text

/-- A quoted text. -/
def readQuoted (text : List Char) : Except Fault (String × List Char) :=
  match text with
  | '"' :: '"' :: '"' :: rest => readLong '"' true (rest.length + 1) [] (skipFirstNewline rest)
  | '\'' :: '\'' :: '\'' :: rest =>
    readLong '\'' false (rest.length + 1) [] (skipFirstNewline rest)
  | '"' :: rest => readBasic (rest.length + 1) [] rest
  | '\'' :: rest => readLiteral rest
  | _ => fail "string expected" text

/-- The characters of a key without quotes. -/
def isBareKeyChar (c : Char) : Bool :=
  c.isAlphanum || c == '_' || c == '-'

/-- One part of a key. -/
def readKeyPart (text : List Char) : Except Fault (String × List Char) :=
  match text with
  | '"' :: rest => readBasic (rest.length + 1) [] rest
  | '\'' :: rest => readLiteral rest
  | _ =>
    let bare := text.takeWhile isBareKeyChar
    if bare.isEmpty then fail "key expected" text
    else .ok (String.ofList bare, text.drop bare.length)

/-- A key: parts joined by dots, with optional spaces around each part. -/
def readKey : Nat → List String → Reader (List String)
  | 0, _, text => fail "key too long" text
  | fuel + 1, found, text =>
    match readKeyPart (skipSpaces text) with
    | .error fault => .error fault
    | .ok (part, rest) =>
      match skipSpaces rest with
      | '.' :: rest => readKey fuel (part :: found) rest
      | rest => .ok ((part :: found).reverse, rest)

end Stencil.Data.Toml
