import Stencil.Template.Token

/-!
Outlines: what a template refers to, without rendering it.
-/

namespace Stencil.Template

/-- The distinct placeholder paths and loop sources in the order of their first use, and the
numbers of loops and of escaped tags.
-/
structure Outline where
  placeholders : List String
  loops : List String
  loopCount : Nat
  escapedCount : Nat
  deriving DecidableEq, Repr, Inhabited

namespace Outline

/-- The items of a list without repetitions, in the order of their first occurrences. -/
def distinct (items : List String) : List String :=
  (items.foldl (fun found item => if found.contains item then found else item :: found)
    []).reverse

/-- The path of a placeholder. -/
def placeholder? : Token → Option String
  | .placeholder path _ => some path.format
  | _ => none

/-- The source path of a loop start. -/
def loop? : Token → Option String
  | .loopStart path _ _ _ => some path.format
  | _ => none

/-- Whether a token is an escaped tag. -/
def isEscaped : Token → Bool
  | .escaped _ _ => true
  | _ => false

/-- The outline of a token sequence. -/
def ofTokens (tokens : List Token) : Outline where
  placeholders := distinct (tokens.filterMap placeholder?)
  loops := distinct (tokens.filterMap loop?)
  loopCount := (tokens.filterMap loop?).length
  escapedCount := tokens.countP isEscaped

end Outline

end Stencil.Template
