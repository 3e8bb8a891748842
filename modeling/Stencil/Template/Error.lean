import Stencil.Path
import Stencil.Position

/-!
What can be wrong with a template or with its rendering. Each constructor is a cause; the
wording is made from it in one place.
-/

namespace Stencil.Template

/-- The kind of a value, as named in messages. -/
inductive Kind where
  | string
  | integer
  | float
  | boolean
  | date
  | list
  | table
  deriving DecidableEq, Repr, Inhabited

/-- The name of a kind. -/
def Kind.name : Kind → String
  | string => "string"
  | integer => "integer"
  | float => "float"
  | boolean => "boolean"
  | date => "date"
  | list => "list"
  | table => "table"

/-- What a place in a template asks of a value. -/
inductive Shape where
  | scalar
  | list
  | table
  deriving DecidableEq, Repr, Inhabited

/-- The name of a shape. -/
def Shape.name : Shape → String
  | scalar => "scalar"
  | list => "list"
  | table => "table"

/-- Why the content of a tag is no tag. -/
inductive TagFault where
  | empty
  | unknownClosing (content : String)
  | malformedLoop (content : String)
  | notAPath (content : String)
  deriving DecidableEq, Repr, Inhabited

/-- A text between the delimiters of a tag. -/
def inBraces (content : String) : String :=
  "\x7b\x7b" ++ content ++ "\x7d\x7d"

/-- The reason given for a tag fault. -/
def TagFault.reason : TagFault → String
  | empty => "empty placeholder " ++ inBraces ""
  | unknownClosing content => "unknown closing tag " ++ inBraces content
  | malformedLoop content =>
    "expected " ++ inBraces "each <path> |<name>|" ++ ", found " ++ inBraces content
  | notAPath content =>
    "invalid placeholder " ++ inBraces content ++ "; expected a dotted key such as "
      ++ inBraces "paper.title"

/-- The cause of a failed tokenization or rendering. -/
inductive Error where
  /-- An opening delimiter, escaped or not, has no closing one after it. -/
  | unclosedTag (escaped : Bool) (position : Position)
  /-- A loop over `path` has no loop end. -/
  | unclosedLoop (path : String) (position : Position)
  /-- A loop end stands where no loop is open. -/
  | strayLoopEnd (position : Position)
  /-- A tag is neither a placeholder nor an end of a loop. -/
  | invalidTag (fault : TagFault) (position : Position)
  /-- A path leads to no value. -/
  | unknownKey (path : String) (position? : Option Position)
  /-- A path leads to a value of another kind than its place asks for. -/
  | kindMismatch (path : String) (expected : Shape) (actual : Kind)
      (position? : Option Position)
  /-- The step budget is spent and a token is left. -/
  | outOfSteps (budget : Nat) (position : Position)
  deriving DecidableEq, Repr, Inhabited

end Stencil.Template
