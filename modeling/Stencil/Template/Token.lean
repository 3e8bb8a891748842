import Stencil.Path
import Stencil.Position

/-!
Tokens of a template: literal stretches, escaped tags, placeholders and the two ends of a
loop, in the order of the text.
-/

namespace Stencil.Template

/-- The indexes from `start` up to, but not including, `stop`. -/
structure Span where
  start : Nat
  stop : Nat
  deriving DecidableEq, Repr, Inhabited

/-- One token. A loop start knows the span of its body, whose `stop` is the index of its
loop end, and a loop end knows the index of its loop start.
-/
inductive Token where
  | literal (text : String) (position : Position)
  | escaped (text : String) (position : Position)
  | placeholder (path : Path) (position : Position)
  | loopStart (path : Path) (binding : String) (body : Span) (position : Position)
  | loopEnd (start : Nat) (position : Position)
  deriving DecidableEq, Repr, Inhabited

namespace Token

/-- Where the token starts in the template text. -/
def position : Token → Position
  | literal _ position => position
  | escaped _ position => position
  | placeholder _ position => position
  | loopStart _ _ _ position => position
  | loopEnd _ position => position

/-- The loop start with its body ending before `stop`; any other token unchanged. -/
def closeBody (stop : Nat) : Token → Token
  | loopStart path binding body position =>
    loopStart path binding ⟨body.start, stop⟩ position
  | token => token

end Token

end Stencil.Template
