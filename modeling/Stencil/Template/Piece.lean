import Stencil.Position
import Stencil.Text.Search

/-!
Pieces of a template text: what one scan finds between and inside the tag delimiters, before
any tag is read. A backslash run before an opening delimiter is halved, and an odd run makes
the tag an escaped one.
-/

namespace Stencil.Template

/-- The opening delimiter of a tag. -/
def opening : List Char := ['\x7b', '\x7b']

/-- The closing delimiter of a tag. -/
def closing : List Char := ['\x7d', '\x7d']

/-- A stretch of template text. -/
inductive Piece where
  /-- Text outside tags, with the backslash pairs before a tag halved. -/
  | literal (text : List Char)
  /-- The content of a tag whose opening delimiter is escaped. -/
  | escaped (content : List Char)
  /-- The content of a tag. -/
  | tag (content : List Char)
  /-- An opening delimiter, escaped or not, after which no closing delimiter follows. -/
  | unclosed (escaped : Bool)
  deriving DecidableEq, Repr

namespace Piece

/-- The number of backslashes at the end of a text. -/
def trailingBackslashes (text : List Char) : Nat :=
  (text.reverse.takeWhile (· == '\\')).length

/-- The literal that the text before a tag stands for: its trailing backslashes are
halved, rounding down.
-/
def literalBefore (text : List Char) : List Char :=
  text.take (text.length - (trailingBackslashes text + 1) / 2)

/-- Whether the tag after a text is escaped: an odd number of backslashes ends the text. -/
def escapes (text : List Char) : Bool :=
  trailingBackslashes text % 2 == 1

/-- A literal piece, or nothing for an empty text. -/
def ofLiteral (text : List Char) (position : Position) : List (Piece × Position) :=
  if text.isEmpty then [] else [(literal text, position)]

/-- Scans the text at `position`, after the pieces already found. -/
def scanFrom (position : Position) (text : List Char) (found : Array (Piece × Position))
    : Array (Piece × Position) :=
  match _cut : Text.cutAt? opening text with
  | none => found ++ ofLiteral text position
  | some (before, after) =>
    let escaped := escapes before
    let tagPosition :=
      position.after (if escaped then before.dropLast else before)
    let found := found ++ ofLiteral (literalBefore before) position
    match _cutBody : Text.cutAt? closing after with
    | none => found.push (unclosed escaped, tagPosition)
    | some (content, rest) =>
      let piece := if escaped then Piece.escaped content else tag content
      scanFrom
        (position.after (before ++ opening ++ content ++ closing))
        rest
        (found.push (piece, tagPosition))
  termination_by text.length
  decreasing_by
    have shorter := Text.length_of_cutAt? _cut
    have shorterBody := Text.length_of_cutAt? _cutBody
    simp only [opening, closing, List.length_cons, List.length_nil] at shorter shorterBody
    omega

/-- The pieces of a template text, with their positions, in the order of the text. -/
def scan (text : List Char) : Array (Piece × Position) :=
  scanFrom .start text #[]

end Piece

end Stencil.Template
