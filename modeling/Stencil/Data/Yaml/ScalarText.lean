import Stencil.Data.Yaml.Lexeme
import Stencil.Number.Literal
import Stencil.Text

/-!
The texts of plain and quoted scalars. A line break in them is a blank, and several line breaks
are one less; the blanks around them do not count.
-/

namespace Stencil.Data.Yaml.ScalarText

/-- Whether a character is a blank within a line. -/
def isBlank (c : Char) : Bool :=
  c == ' ' || c == '\t'

/-- The lines of a text, without their line breaks. A carriage return counts as part of a line
break only before a line feed.
-/
def linesOf (text : List Char) : List (List Char) :=
  let (line, lines) := text.foldr (fun c (line, lines) =>
    if c == '\n' then ([], (line :: lines)) else (c :: line, lines)) ([], [])
  let withoutReturn (line : List Char) : List Char :=
    if line.getLast? == some '\r' then line.dropLast else line
  -- Only a line with a line break after it gives up its carriage return.
  let lines := line :: lines
  (lines.dropLast.map withoutReturn) ++ [lines.getLastD []]

/-- A line without the blanks at its end. -/
def trimEnd (line : List Char) : List Char :=
  (line.reverse.dropWhile isBlank).reverse

/-- The lines after the first one, joined to the text before them. `separator` is what the
line breaks so far come to.
-/
def joinLines (separator : List Char) : List (List Char) → List Char
  | [] => separator
  | [last] => separator ++ last.dropWhile isBlank
  | line :: lines =>
    let line := trimEnd (line.dropWhile isBlank)
    if line.isEmpty then
      if separator == ['\n'] then '\n' :: joinLines separator lines
      else joinLines ['\n'] lines
    else separator ++ line ++ joinLines [' '] lines

/-- A text with its lines joined. -/
def joined (text : List Char) : List Char :=
  match linesOf text with
  | [] => []
  | [line] => line
  | line :: lines => trimEnd line ++ joinLines [' '] lines

/-- The characters that no plain scalar starts with. -/
def badStarts : List Char :=
  ['\t', ',', '%', '|', '>', '@', '\x60']

/-- The text of a plain scalar. -/
def plain (lexeme : Lexeme) : Except Mistake String :=
  if lexeme.text.head?.any badStarts.contains then refuse "bad start of a scalar" lexeme.offset
  else .ok (String.ofList (joined lexeme.text))

/-- A text in which each quote was written twice. -/
def singleQuotes : List Char → List Char
  | '\'' :: '\'' :: rest => '\'' :: singleQuotes rest
  | c :: rest => c :: singleQuotes rest
  | [] => []

/-- The text between the quotes of a quoted scalar. -/
def content? (quote : Char) (text : List Char) : Option (List Char) :=
  if text.length > 1 && text.getLast? == some quote then some (text.drop 1).dropLast else none

/-- The text of a scalar in single quotes. -/
def single (lexeme : Lexeme) : Except Mistake String :=
  match content? '\'' lexeme.text with
  | some text => .ok (String.ofList (singleQuotes (joined text)))
  | none => refuse "closing quote expected" lexeme.offset

/-- The characters that single characters after a backslash stand for. -/
def escapes : List (Char × Char) :=
  [('0', '\x00'), ('a', '\x07'), ('b', '\x08'), ('e', '\x1b'), ('f', '\x0c'), ('n', '\n'),
    ('r', '\r'), ('t', '\t'), ('v', '\x0b'), ('N', '\u0085'), ('_', '\u00a0'),
    ('L', '\u2028'), ('P', '\u2029'), (' ', ' '), ('"', '"'), ('/', '/'), ('\\', '\\'),
    ('\t', '\t')]

/-- The number of digits after a letter that a hexadecimal escape starts with. -/
def hexWidths : List (Char × Nat) :=
  [('x', 2), ('u', 4), ('U', 8)]

/-- The number of line breaks among the gaps at the start of a text, and the text after them.
A carriage return belongs to a gap only before a line feed.
-/
def splitBreaks : List Char → Nat × List Char
  | [] => (0, [])
  | '\r' :: '\n' :: rest =>
    let (count, rest) := splitBreaks rest
    (count + 1, rest)
  | c :: rest =>
    if c == '\n' then
      let (count, rest) := splitBreaks rest
      (count + 1, rest)
    else if isBlank c then splitBreaks rest
    else (0, c :: rest)

/-- Whether a text goes on with a line break, after blanks. -/
def isBreakNext (text : List Char) : Bool :=
  match text.dropWhile isBlank with
  | '\n' :: _ => true
  | '\r' :: '\n' :: _ => true
  | _ => false

/-- Reads the text between double quotes, as code points; escapes may spell 16-bit units. Each
step takes one character or more.
-/
def readDouble : Nat → List Char → Option (List Nat)
  | 0, _ => some []
  | _, [] => some []
  | fuel + 1, '\r' :: '\n' :: rest => readDouble fuel ('\n' :: rest)
  | fuel + 1, '\n' :: rest =>
    let (breaks, rest) := splitBreaks rest
    let fold := if breaks = 0 then [' '] else List.replicate breaks '\n'
    (readDouble fuel rest).map (fold.map Char.toNat ++ ·)
  | fuel + 1, '\\' :: '\n' :: rest => readDouble fuel (rest.dropWhile isBlank)
  | fuel + 1, '\\' :: '\r' :: '\n' :: rest => readDouble fuel (rest.dropWhile isBlank)
  | fuel + 1, '\\' :: letter :: rest =>
    match escapes.lookup letter, hexWidths.lookup letter with
    | some c, _ => (readDouble fuel rest).map (c.toNat :: ·)
    | none, some width => do
      let code ← Number.natOfDigits? 16 (rest.take width)
      let units ← readDouble fuel (rest.drop width)
      if (rest.take width).length = width && code < 0x110000 then some (code :: units)
      else none
    | none, none => none
  | _, ['\\'] => none
  | fuel + 1, c :: rest =>
    if isBlank c then
      let blanks := c :: rest.takeWhile isBlank
      let after := rest.dropWhile isBlank
      if isBreakNext rest then readDouble fuel after
      else (readDouble fuel after).map (blanks.map Char.toNat ++ ·)
    else (readDouble fuel rest).map (c.toNat :: ·)

/-- The text of a scalar in double quotes. -/
def double (lexeme : Lexeme) : Except Mistake String :=
  match content? '"' lexeme.text with
  | none => refuse "closing quote expected" lexeme.offset
  | some text =>
    match readDouble (text.length + 1) text with
    | some units => .ok (String.ofList (Text.ofUnits units))
    | none => refuse "bad escape" lexeme.offset

end Stencil.Data.Yaml.ScalarText
