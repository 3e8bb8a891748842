import Stencil.Text.Search

/-!
Dotted paths such as `paper.title`: names joined by single dots.
-/

namespace Stencil

/-- The segments of a dotted path, outermost first. -/
abbrev Path := List String

namespace Path

/-- The characters of a name: ASCII letters, ASCII digits and the underscore. -/
def isNameChar (c : Char) : Bool :=
  c.isAlphanum || c == '_'

/-- Whether the characters form a name: one or more name characters. -/
def isNameText (text : List Char) : Bool :=
  !text.isEmpty && text.all isNameChar

/-- Whether a text is a name, the form of a path segment and of a loop variable. -/
def isName (text : String) : Bool :=
  isNameText text.toList

/-- The segments spelled by the characters, if each of them is a name. -/
def ofText? (text : List Char) : Option Path :=
  let segments := Text.splitOn '.' text
  if segments.all isNameText then some (segments.map String.ofList) else none

/-- The path a text spells, if it is names joined by single dots. -/
def parse? (text : String) : Option Path :=
  ofText? text.toList

/-- The text of a path: its segments joined by dots. -/
def format (path : Path) : String :=
  ".".intercalate path

end Path

end Stencil
