import Stencil.Template.Resolve
import Stencil.Template.Token

/-!
Rendering a token sequence. The state of a run is the index of the next token, the running
loops and the text chunks written so far; each token that is processed costs one step of the
budget.
-/

namespace Stencil.Template

/-- A running loop: its variable, its body, the items that are done, the item that the
variable has now, and the items to come. The items done are kept in reverse.
-/
structure Frame where
  binding : String
  body : Span
  done : List Value
  current : Value
  coming : List Value

/-- The values of the loop variables, the innermost loop first. -/
def bindingsOf (frames : List Frame) : Bindings := fun name =>
  (frames.find? (·.binding == name)).map Frame.current

/-- The state of a run between two tokens. Frames are kept innermost first and chunks in
reverse.
-/
structure Run where
  next : Nat
  frames : List Frame
  chunks : List String

/-- Why a run stops without a text. -/
inductive Stop where
  /-- The template or its data are at fault. -/
  | error (cause : Error)
  /-- The token sequence has a loop end at `index` where no loop runs. -/
  | strayLoopEnd (index : Nat)
  deriving DecidableEq, Repr

namespace Run

/-- The state before the first token. -/
def initial : Run := ⟨0, [], []⟩

/-- The scope of the next token. -/
def scope (run : Run) (root : Table) : Scope :=
  ⟨root, bindingsOf run.frames⟩

/-- Writes a chunk and goes to the following token. -/
def write (run : Run) (chunk : String) : Run :=
  { run with next := run.next + 1, chunks := chunk :: run.chunks }

/-- Enters the body of a loop, or passes its loop end if there are no items. -/
def enter (run : Run) (binding : String) (body : Span) : List Value → Run
  | [] => { run with next := body.stop + 1 }
  | first :: coming =>
    { run with
      next := body.start
      frames := ⟨binding, body, [], first, coming⟩ :: run.frames }

/-- Goes back to the body of the innermost loop for its next item, or leaves the loop. -/
def turn (run : Run) : Except Stop Run :=
  match run.frames with
  | [] => .error (.strayLoopEnd run.next)
  | frame :: outer =>
    match frame.coming with
    | [] => .ok { run with next := run.next + 1, frames := outer }
    | item :: coming =>
      let frame :=
        { frame with done := frame.current :: frame.done, current := item, coming := coming }
      .ok { run with next := frame.body.start, frames := frame :: outer }

/-- Processes one token. -/
def step (root : Table) (run : Run) : Token → Except Stop Run
  | .literal text _ => .ok (run.write text)
  | .escaped text _ => .ok (run.write text)
  | .placeholder path position =>
    match (run.scope root).resolveScalar path (some position) with
    | .ok scalar => .ok (run.write scalar.text)
    | .error cause => .error (.error cause)
  | .loopStart path binding body position =>
    match (run.scope root).resolveList path (some position) with
    | .ok items => .ok (run.enter binding body items)
    | .error cause => .error (.error cause)
  | .loopEnd _ _ => run.turn

/-- The text written so far. -/
def text (run : Run) : String :=
  String.join run.chunks.reverse

/-- Runs on until no token is left, within `left` of the `budget` steps. -/
def complete (tokens : Array Token) (root : Table) (budget : Nat)
    : Nat → Run → Except Stop String
  | left, run =>
    match tokens[run.next]? with
    | none => .ok run.text
    | some token =>
      match left with
      | 0 => .error (.error (.outOfSteps budget token.position))
      | left + 1 =>
        match run.step root token with
        | .ok run => run.complete tokens root budget left
        | .error stop => .error stop

end Run

/-- The step budget of a rendering that names none. -/
def defaultBudget : Nat := 10000000

/-- The text of a token sequence rendered against a root table, within a step budget. -/
def renderTokens (tokens : Array Token) (root : Table) (budget : Nat)
    : Except Stop String :=
  Run.initial.complete tokens root budget budget

/-- A step budget that is no natural number. -/
structure InvalidBudget where
  given : Number
  deriving DecidableEq, Repr

/-- The budget that a number asks for. -/
def budgetOf (given : Number) : Except InvalidBudget Nat :=
  match given.toInt? with
  | some (.ofNat budget) => .ok budget
  | _ => .error ⟨given⟩

/-- The complaint about a step budget. -/
def InvalidBudget.message (invalid : InvalidBudget) : String :=
  "maxSteps must be a non-negative integer, got " ++ invalid.given.text

end Stencil.Template
