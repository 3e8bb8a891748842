import Stencil.Context
import Stencil.Template.Outline
import Stencil.Template.Tokenize

/-!
Compiled templates: tokenized once and rendered against any number of contexts.
-/

namespace Stencil.Template

/-- Why a template is not rendered. -/
inductive RenderFault where
  /-- The step budget is no natural number. -/
  | badBudget (invalid : InvalidBudget)
  /-- The run stopped. -/
  | stopped (stop : Stop)
  deriving DecidableEq, Repr

/-- The complaint about a loop end at an index where no loop runs. -/
def strayLoopEndMessage (index : Nat) : String :=
  "Internal renderer error: loop end at token " ++ toString index
    ++ " without an active frame"

/-- The complaint about a template that is not rendered. -/
def RenderFault.message : RenderFault → String
  | badBudget invalid => invalid.message
  | stopped (.error cause) => cause.diagnostic.message
  | stopped (.strayLoopEnd index) => strayLoopEndMessage index

/-- The text of a token sequence, within a step budget that may be left open. -/
def renderWithin (tokens : Array Token) (context : Context) (budget? : Option Number)
    : Except RenderFault String :=
  match budget?.elim (.ok defaultBudget) budgetOf with
  | .error invalid => .error (.badBudget invalid)
  | .ok budget =>
    match renderTokens tokens context.root budget with
    | .error stop => .error (.stopped stop)
    | .ok text => .ok text

/-- A tokenized template, with the step budget of the renderings that name none. -/
structure Compiled where
  tokens : Array Token
  budget? : Option Number
  deriving Repr, Inhabited

namespace Compiled

/-- Tokenizes a template text. -/
def ofText (text : String) (budget? : Option Number) : Except Error Compiled :=
  (tokenize text).map fun tokens => ⟨tokens, budget?⟩

/-- The text of a template against a context. -/
def render (template : Compiled) (context : Context) (budget? : Option Number)
    : Except RenderFault String :=
  renderWithin template.tokens context (budget? <|> template.budget?)

/-- What a template refers to. -/
def outline (template : Compiled) : Outline :=
  .ofTokens template.tokens.toList

end Compiled

end Stencil.Template
