/-!
The lexemes of a YAML text: marks, blanks, comments and scalars, each with the place where it
stands and the indentation there.
-/

namespace Stencil.Data.Yaml

/-- The kinds of lexemes. -/
inductive Kind where
  | byteOrderMark
  /-- The content of a document begins. It has no text. -/
  | content
  /-- An unindented line breaks brackets off. It has no text. -/
  | breakOff
  | documentStart
  | documentEnd
  | lineBreak
  | itemMark
  | keyMark
  | valueMark
  | mapOpen
  | mapClose
  | listOpen
  | listClose
  | comma
  | blank
  | comment
  | directive
  | reference
  | anchor
  | tag
  | scalar
  | singleQuoted
  | doubleQuoted
  | blockHeader
  /-- A text that is no mark. -/
  | stray
  deriving DecidableEq, Repr, Inhabited

/-- The kinds of the marks that are told by their whole text. -/
def marks : List (String × Kind) :=
  [("\ufeff", .byteOrderMark), ("---", .documentStart), ("...", .documentEnd),
    ("\n", .lineBreak), ("\r\n", .lineBreak), ("-", .itemMark), ("?", .keyMark),
    (":", .valueMark), ("\x7b", .mapOpen), ("\x7d", .mapClose), ("[", .listOpen),
    ("]", .listClose), (",", .comma)]

/-- The kinds of the lexemes that are told by their first character. -/
def leads : List (Char × Kind) :=
  [(' ', .blank), ('\t', .blank), ('#', .comment), ('%', .directive), ('*', .reference),
    ('&', .anchor), ('!', .tag), ('\'', .singleQuoted), ('"', .doubleQuoted),
    ('|', .blockHeader), ('>', .blockHeader)]

/-- The kind of a lexeme that is no plain or block scalar. -/
def Kind.ofText (text : List Char) : Kind :=
  match marks.lookup (String.ofList text) with
  | some kind => kind
  | none => ((text.head?.bind fun c => leads.lookup c).getD .stray)

/-- A lexeme: its kind and text, its offset in 16-bit units, and the spaces and marks before it
on its line that indent what follows them.
-/
structure Lexeme where
  kind : Kind
  text : List Char
  offset : Nat
  indent : Nat
  deriving DecidableEq, Repr, Inhabited

/-- Whether a lexeme only separates others. -/
def Lexeme.isGap (lexeme : Lexeme) : Bool :=
  lexeme.kind == .blank || lexeme.kind == .comment || lexeme.kind == .lineBreak

/-- Whether lexemes hold one of a kind. -/
def hasKind (kind : Kind) (lexemes : List Lexeme) : Bool :=
  lexemes.any (·.kind == kind)

/-- A mistake in a YAML text: what is wrong, and the offset where it shows. -/
structure Mistake where
  reason : String
  offset : Nat
  deriving DecidableEq, Repr, Inhabited

/-- Stops for a mistake. -/
def refuse {α : Type} (reason : String) (offset : Nat) : Except Mistake α :=
  .error ⟨reason, offset⟩

end Stencil.Data.Yaml
