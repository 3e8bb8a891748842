import Stencil.Files.Fault

/-!
Why no search for files is made.
-/

namespace Stencil.Files

/-- Why no search is made. -/
inductive GlobFault where
  /-- A pattern is the empty text. -/
  | emptyPattern
  /-- A pattern that takes files away has no text but its mark. -/
  | emptyExclusion
  /-- A pattern is a name that every record knows. -/
  | reservedPattern
  /-- The directory of a pattern is a name that every record knows. -/
  | reservedDirectory
  /-- A pattern with braces is too long. -/
  | tooLong (length : Nat)
  /-- A range in braces has too many texts. -/
  | tooManyTexts
  /-- Parentheses stand in braces that are not closed. -/
  | strayParentheses
  /-- A directory cannot be read. -/
  | file (fault : Fault)
  deriving DecidableEq, Repr

namespace GlobFault

/-- The greatest length of a pattern with braces, in 16-bit units. -/
def maxLength : Nat := 10000

/-- The text of a glob fault. -/
def message : GlobFault → String
  | emptyPattern => "Patterns must be a string (non empty) or an array of strings"
  | emptyExclusion => "Expected a non-empty string"
  | reservedPattern => "output.startsWith is not a function"
  | reservedDirectory => "collection[base].push is not a function"
  | tooLong length =>
    "Input length (" ++ toString length ++ "), exceeds max characters ("
      ++ toString maxLength ++ ")"
  | tooManyTexts =>
    "expanded array length exceeds range limit. "
      ++ "Use options.rangeLimit to increase or disable the limit."
  | strayParentheses => "Cannot read properties of undefined (reading 'push')"
  | file fault => fault.message

end GlobFault

/-- The names that every record knows. -/
def reservedNames : List String :=
  ["constructor", "hasOwnProperty", "isPrototypeOf", "propertyIsEnumerable", "toLocaleString",
    "toString", "valueOf", "__defineGetter__", "__defineSetter__", "__lookupGetter__",
    "__lookupSetter__", "__proto__"]

end Stencil.Files
