import Stencil.Template.Compiled

/-!
Rendering loose tokens: tokens that were not made from a template text, so that nothing is known
about their places and about where their loops lead. Loops may lead to any number, be it the
index of a token or not.
-/

namespace Stencil.Template

/-- What a loose token is. -/
inductive LooseKind where
  /-- A text that is written as it is. -/
  | text (text : String)
  | placeholder (path : Path)
  /-- A loop start with the start and the stop of its body, if it has a body. -/
  | loopStart (path : Path) (binding : String) (body? : Option (Number × Number))
  | loopEnd
  /-- A token that is nothing known. No run gets past it. -/
  | unknown
  deriving Repr, Inhabited

/-- A loose token, with its place if that is known. -/
structure LooseToken where
  kind : LooseKind
  place? : Option Place
  deriving Repr, Inhabited

/-- Where a run goes on: at an index, past all tokens, or where no token is. -/
inductive Target where
  | index (index : Nat)
  | finish
  | nowhere
  deriving DecidableEq, Repr, Inhabited

/-- Whether a number is below a natural number. -/
def isBelow (count : Nat) : Number → Bool
  | .nan => false
  | .infinity negative => negative
  | .finite negative magnitude =>
    if negative then magnitude.significand != 0 || count != 0
    else decide (magnitude.scaled < count * Nat.pow 2 1074)

/-- The target that a number of tokens from another number is, in a sequence of `count` tokens. -/
def Target.ofNumber (count shift : Nat) (x : Number) : Target :=
  match x.toInt? with
  | some n => if 0 ≤ n + shift then index (n + shift).toNat else nowhere
  | none => if isBelow (count - shift) x then nowhere else finish

/-- A running loop over loose tokens. -/
structure LooseFrame where
  binding : String
  start : Target
  current : Value
  coming : List Value

/-- The state of a run over loose tokens. Frames are kept innermost first and chunks in reverse. -/
structure LooseRun where
  next : Target
  frames : List LooseFrame
  chunks : List String

/-- Why a run over loose tokens stops without a text. -/
inductive LooseStop where
  | failed (diagnostic : Diagnostic)
  | strayLoopEnd (index : Nat)
  /-- Something is asked of a token or a body that is not there. -/
  | missing (key : String)
  deriving Repr

namespace LooseRun

/-- The scope of the next token. -/
def scope (run : LooseRun) (root : Table) : Scope :=
  ⟨root, fun name => (run.frames.find? (·.binding == name)).map LooseFrame.current⟩

/-- Writes a chunk and goes to the token after an index. -/
def write (run : LooseRun) (index : Nat) (chunk : String) : LooseRun :=
  { run with next := .index (index + 1), chunks := chunk :: run.chunks }

/-- Enters the body of a loop, or passes its stop if there are no items. -/
def enter (run : LooseRun) (count : Nat) (binding : String) (body? : Option (Number × Number))
    (items : List Value) : Except LooseStop LooseRun :=
  match items, body? with
  | [], none => .error (.missing "end")
  | [], some (_, stop) => .ok { run with next := .ofNumber count 1 stop }
  | _ :: _, none => .error (.missing "start")
  | first :: coming, some (start, _) =>
    let start := Target.ofNumber count 0 start
    .ok { run with next := start, frames := ⟨binding, start, first, coming⟩ :: run.frames }

/-- Goes back to the body of the innermost loop for its next item, or leaves the loop. -/
def turn (run : LooseRun) (index : Nat) : Except LooseStop LooseRun :=
  match run.frames with
  | [] => .error (.strayLoopEnd index)
  | frame :: outer =>
    match frame.coming with
    | [] => .ok { run with next := .index (index + 1), frames := outer }
    | current :: coming =>
      .ok { run with next := frame.start, frames := { frame with current, coming } :: outer }

/-- Processes the token at an index. -/
def step (root : Table) (count budget index : Nat) (run : LooseRun) (token : LooseToken)
    : Except LooseStop LooseRun :=
  let failed (cause : Error) : LooseStop := .failed (cause.diagnosticAt token.place?)
  match token.kind with
  | .text text => .ok (run.write index text)
  | .placeholder path => do
    let scalar ← ((run.scope root).resolveScalar path none).mapError failed
    return run.write index scalar.text
  | .loopStart path binding body? => do
    let items ← ((run.scope root).resolveList path none).mapError failed
    run.enter count binding body? items
  | .loopEnd => run.turn index
  | .unknown => .error (.failed (.timeout (.ofNat budget) token.place?))

/-- Runs on until no token is left, within `left` of the `budget` steps. -/
def complete (tokens : Array LooseToken) (root : Table) (budget : Nat)
    : Nat → LooseRun → Except LooseStop String
  | left, run =>
    match run.next, left with
    | .finish, _ => .ok (String.join run.chunks.reverse)
    | .nowhere, 0 => .error (.missing "position")
    | .nowhere, _ + 1 => .error (.missing "kind")
    | .index index, left =>
      match tokens[index]?, left with
      | none, _ => .ok (String.join run.chunks.reverse)
      | some token, 0 => .error (.failed (.timeout (.ofNat budget) token.place?))
      | some token, left + 1 =>
        match run.step root tokens.size budget index token with
        | .ok run => run.complete tokens root budget left
        | .error stop => .error stop

end LooseRun

/-- The text of loose tokens rendered against a root table, within a step budget. -/
def renderLoose (tokens : Array LooseToken) (root : Table) (budget : Nat)
    : Except LooseStop String :=
  LooseRun.complete tokens root budget budget ⟨.index 0, [], []⟩

/-- Why loose tokens are not rendered. -/
inductive LooseFault where
  /-- The step budget is no natural number. -/
  | badBudget (invalid : InvalidBudget)
  /-- The run stopped. -/
  | stopped (stop : LooseStop)
  deriving Repr

/-- The text of loose tokens, within a step budget that may be left open. -/
def renderLooseWithin (tokens : Array LooseToken) (context : Context) (budget? : Option Number)
    : Except LooseFault String :=
  match budget?.elim (.ok defaultBudget) budgetOf with
  | .error invalid => .error (.badBudget invalid)
  | .ok budget => (renderLoose tokens context.root budget).mapError .stopped

end Stencil.Template
