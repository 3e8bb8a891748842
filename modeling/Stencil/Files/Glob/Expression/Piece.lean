import Stencil.Regex

/-!
The pieces of a pattern, and the texts of regular expressions that they are made of.
-/

namespace Stencil.Files.Glob.Expression

/-! Texts of regular expressions -/

/-- Any unit but a slash. -/
def anyUnit : List Char := "[^/]".toList

/-- Any unit but a slash and a dot. -/
def anyUnitNoDot : List Char := "[^.\\/]".toList

/-- Any units but slashes. -/
def anyUnits : List Char := anyUnit ++ "*?".toList

/-- A place before a unit. -/
def beforeUnit : List Char := "(?=.)".toList

/-- A slash. -/
def slash : List Char := "\\/".toList

/-- A dot. -/
def dot : List Char := "\\.".toList

/-- The end of a name. -/
def nameEnd : List Char := "(?:\\/|$)".toList

/-- A name of one or two dots. -/
def dotName : List Char := dot ++ "\x7b1,2\x7d".toList ++ nameEnd

/-- A place before something else than a text. -/
def notBefore (text : List Char) : List Char := "(?!".toList ++ text ++ [')']

/-- A place before no dot. -/
def noDot : List Char := notBefore dot

/-- A place before no name of at most one dot. -/
def noShortName : List Char := notBefore (dot ++ "\x7b0,1\x7d".toList ++ nameEnd)

/-- A place before no name of one or two dots. -/
def noDotName : List Char := notBefore dotName

/-- A place before no name of one or two dots, whose start is looked for. -/
def noDotNameFromStart : List Char := notBefore ("(?:^|\\/)".toList ++ dotName)

/-- Any names, hidden ones apart unless those are to be shown. -/
def anyNames (showHidden : Bool) : List Char :=
  "(?:(?:".toList ++ notBefore ("(?:^|\\/)".toList ++ if showHidden then dotName else dot)
    ++ ".)*?)".toList

/-- The characters that have a meaning in regular expressions. -/
def marks : List Char := "-*+?.^$\x7b\x7d(|)[]".toList

/-- Whether a text has a character with a meaning. -/
def hasMarks (text : List Char) : Bool := text.any marks.contains

/-- A text whose characters have no meaning. -/
def escaped (text : List Char) : List Char :=
  text.flatMap fun c => if marks.contains c then ['\\', c] else [c]

/-- A text without a number of characters at its end. -/
def dropEnd (count : Nat) (text : List Char) : List Char :=
  text.take (text.length - count)

/-- Takes the last of some characters, in a text in reverse, its meaning. -/
def escapeFirst (mark : Char) : List Char → List Char
  | [] => []
  | c :: rest =>
    if c == mark && rest.head? != some '\\' then c :: '\\' :: rest
    else c :: escapeFirst mark rest

/-- A text in which a number of marks, the last ones, have no meaning. -/
def escapeLast (mark : Char) : Nat → List Char → List Char
  | 0, text => text
  | count + 1, text => escapeLast mark count (escapeFirst mark text.reverse).reverse

/-- The units of the named classes of characters. -/
def classes : List (String × String) :=
  [("alnum", "a-zA-Z0-9"), ("alpha", "a-zA-Z"), ("ascii", "\\x00-\\x7F"), ("blank", " \\t"),
    ("cntrl", "\\x00-\\x1F\\x7F"), ("digit", "0-9"), ("graph", "\\x21-\\x7E"), ("lower", "a-z"),
    ("print", "\\x20-\\x7E "),
    ("punct", "\\-!\"#$%&\x27()\\*+,./:;<=>?@[\\]^_\x60\x7b|\x7d~"),
    ("space", " \\t\\r\\n\\v\\f"), ("upper", "A-Z"), ("word", "A-Za-z0-9_"),
    ("xdigit", "A-Fa-f0-9")]

/-! Pieces -/

/-- The kinds of pieces. -/
inductive Kind where
  /-- The start of the pattern. -/
  | start
  | text
  | slash
  | dot
  /-- The dots of a range. -/
  | dots
  /-- Any part of a name. -/
  | star
  /-- Any names. -/
  | stars
  /-- A mark before parentheses. -/
  | extension
  /-- A mark without parentheses. -/
  | mark
  | bracket
  | brace
  | comma
  | parenthesis
  /-- A slash at the end, that may be missing. -/
  | ending
  deriving DecidableEq, Repr

/-- A piece of a pattern: its own text, and the text of an expression if that is another one. -/
structure Piece where
  kind : Kind
  value : List Char
  output? : Option (List Char)
  /-- Whether it belongs to parentheses with a mark. -/
  isExtension : Bool
  /-- Whether it has a named class. -/
  hasClass : Bool
  /-- Whether it has more than two stars. -/
  hasMoreStars : Bool
  deriving Repr

namespace Piece

/-- A piece with its expression. -/
def ofOutput (kind : Kind) (value output : List Char) : Piece :=
  ⟨kind, value, some output, false, false, false⟩

/-- A piece that is its own expression. -/
def ofValue (kind : Kind) (value : List Char) : Piece :=
  ⟨kind, value, none, false, false, false⟩

/-- The start of a pattern. -/
def atStart : Piece := .ofOutput .start [] []

/-- The expression of a piece. -/
def output (piece : Piece) : List Char := piece.output?.getD piece.value

/-- The expression of a piece, or its own text if that is empty. -/
def outputOrValue (piece : Piece) : List Char :=
  if piece.output.isEmpty then piece.value else piece.output

/-- Adds to the expression of a piece. -/
def addOutput (piece : Piece) (text : List Char) : Piece :=
  { piece with output? := some (piece.output?.getD [] ++ text) }

/-- Adds a text to a piece of text. -/
def addText (piece : Piece) (text : List Char) : Piece :=
  { piece.addOutput text with value := piece.value ++ text }

/-- A piece for any names. -/
def toStars (piece : Piece) (output : List Char) : Piece :=
  { piece with kind := .stars, value := piece.value ++ ['*'], output? := some output }

end Piece

end Stencil.Files.Glob.Expression
