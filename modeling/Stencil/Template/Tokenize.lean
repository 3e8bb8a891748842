import Stencil.Template.Piece
import Stencil.Template.Tag
import Stencil.Template.Token

/-!
From template text to tokens. The pieces of the text are assembled from left to right; the
loops still open are kept innermost first, and a loop end completes the body of the innermost
one.
-/

namespace Stencil.Template

/-- A loop start whose loop end has not come yet. -/
structure OpenLoop where
  index : Nat
  path : Path
  position : Position
  deriving DecidableEq, Repr

/-- The tokens so far and the open loops, innermost first. -/
structure Assembly where
  tokens : Array Token
  openLoops : List OpenLoop
  deriving DecidableEq, Repr

namespace Assembly

/-- Nothing assembled. -/
def empty : Assembly := ⟨#[], []⟩

/-- One token more. -/
def push (assembly : Assembly) (token : Token) : Assembly :=
  { assembly with tokens := assembly.tokens.push token }

/-- A loop start more. Its body is empty until the loop end comes. -/
def openLoop (assembly : Assembly) (path : Path) (binding : String) (position : Position)
    : Assembly :=
  let index := assembly.tokens.size
  { tokens := assembly.tokens.push (.loopStart path binding ⟨index + 1, index + 1⟩ position)
    openLoops := ⟨index, path, position⟩ :: assembly.openLoops }

/-- A loop end more, which completes the body of the innermost open loop. -/
def closeLoop (assembly : Assembly) (position : Position) : Except Error Assembly :=
  match assembly.openLoops with
  | [] => .error (.strayLoopEnd position)
  | innermost :: outer =>
    .ok
      { tokens :=
          (assembly.tokens.modify innermost.index (·.closeBody assembly.tokens.size)).push
            (.loopEnd innermost.index position)
        openLoops := outer }

/-- The assembly after one more piece. -/
def add (assembly : Assembly) (piece : Piece × Position) : Except Error Assembly :=
  match piece with
  | (.literal text, position) => .ok (assembly.push (.literal (String.ofList text) position))
  | (.escaped content, position) =>
    .ok (assembly.push (.escaped (String.ofList (opening ++ content ++ closing)) position))
  | (.unclosed escaped, position) => .error (.unclosedTag escaped position)
  | (.tag content, position) =>
    match Tag.ofContent content with
    | .error fault => .error (.invalidTag fault position)
    | .ok (.placeholder path) => .ok (assembly.push (.placeholder path position))
    | .ok (.loopStart path binding) => .ok (assembly.openLoop path binding position)
    | .ok .loopEnd => assembly.closeLoop position

/-- The tokens, once no loop is open; the outermost open loop is reported otherwise. -/
def finish (assembly : Assembly) : Except Error (Array Token) :=
  match assembly.openLoops.getLast? with
  | none => .ok assembly.tokens
  | some outermost => .error (.unclosedLoop outermost.path.format outermost.position)

end Assembly

/-- The tokens of a template text, or the first thing wrong with it. -/
def tokenize (text : String) : Except Error (Array Token) := do
  let assembly ← (Piece.scan text.toList).foldlM Assembly.add .empty
  assembly.finish

end Stencil.Template
