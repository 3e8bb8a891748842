import Stencil.Files.Glob.Expression.Piece

/-!
The state of reading a pattern: what is left of it, its pieces, and the expression so far.
-/

namespace Stencil.Files.Glob.Expression

/-- What is open around a place. -/
inductive Nesting where
  | parentheses
  | bracket
  | braces
  deriving DecidableEq, Repr

/-- An opening brace: the length of the expression and the number of pieces before it, and what
stands behind it.
-/
structure OpenBrace where
  outputLength : Nat
  pieceCount : Nat
  hasComma : Bool
  hasDots : Bool
  deriving Repr

/-- The marks before parentheses: one of what they hold, at most one, at least one, any number,
or something else.
-/
inductive Mark where
  | one
  | option
  | many
  | any
  | negation
  deriving DecidableEq, Repr

/-- The text of a mark. -/
def Mark.value : Mark → List Char
  | one => ['@']
  | option => ['?']
  | many => ['+']
  | any => ['*']
  | negation => ['!']

/-- The expression before what parentheses with a mark hold. -/
def Mark.opening : Mark → List Char
  | negation => "(?:(?!(?:".toList
  | _ => "(?:".toList

/-- The expression after what parentheses with a mark hold. -/
def Mark.closing : Mark → List Char
  | one => ")".toList
  | option => ")?".toList
  | many => ")+".toList
  | any => ")*".toList
  | negation => "))".toList ++ anyUnits ++ [')']

/-- Opening parentheses with a mark: the number of open parentheses before them, and the text
behind them.
-/
structure Extension where
  mark : Mark
  parens : Int
  inner : List Char
  deriving Repr

/-- The state of reading a pattern. -/
structure State where
  showHidden : Bool
  unread : List Char
  /-- The number of characters that have been read. -/
  position : Nat
  /-- The place where the pattern starts, after marks of negation and the like. -/
  start : Nat
  /-- The pieces, the last one first. -/
  pieces : List Piece
  output : List Char
  isNegated : Bool
  isInBracket : Bool
  isQuoted : Bool
  /-- Whether the expression is to be made anew from the pieces. -/
  mustRebuild : Bool
  parens : Int
  braces : List OpenBrace
  extensions : List Extension
  nesting : List Nesting
  deriving Repr

namespace State

/-- The state at the start of a pattern. -/
def begin (showHidden : Bool) (text : List Char) : State where
  showHidden
  unread := text
  position := 0
  start := 0
  pieces := [.atStart]
  output := []
  isNegated := false
  isInBracket := false
  isQuoted := false
  mustRebuild := false
  parens := 0
  braces := []
  extensions := []
  nesting := []

/-- The last piece. -/
def last (state : State) : Piece := state.pieces.headD .atStart

/-- Changes the last piece. -/
def changeLast (f : Piece → Piece) (state : State) : State :=
  { state with pieces := f state.last :: state.pieces.drop 1 }

/-- Passes over characters. -/
def skip (count : Nat) (state : State) : State :=
  { state with unread := state.unread.drop count, position := state.position + count }

/-- Adds to the expression. -/
def write (text : List Char) (state : State) : State :=
  { state with output := state.output ++ text }

/-- Goes into something that opens. -/
def enter (nesting : Nesting) (state : State) : State :=
  { state with nesting := nesting :: state.nesting }

/-- Goes out of what was opened last. -/
def leave (state : State) : State :=
  { state with nesting := state.nesting.drop 1 }

/-- Makes stars for any names stars for part of a name, unless a piece ends the name. -/
def settleStars (piece : Piece) (state : State) : State :=
  let isBraces := !state.braces.isEmpty && (piece.kind = .comma || piece.kind = .brace)
  if state.last.kind ≠ .stars || piece.kind = .slash || piece.kind = .parenthesis || isBraces
      || piece.isExtension then state
  else
    let output := dropEnd state.last.output.length state.output ++ anyUnits
    { state with output }.changeLast fun last =>
      { last with kind := .star, value := ['*'], output? := some anyUnits }

/-- Notes the text of a piece as text of the innermost parentheses with a mark. -/
def noteInner (piece : Piece) (state : State) : State :=
  match state.extensions with
  | extension :: outer =>
    if piece.kind = .parenthesis then state
    else
      let extension := { extension with inner := extension.inner ++ piece.value }
      { state with extensions := extension :: outer }
  | [] => state

/-- Adds a piece. -/
def push (piece : Piece) (state : State) : State :=
  let state := ((state.settleStars piece).noteInner piece).write piece.output
  if state.last.kind = .text && piece.kind = .text then
    state.changeLast (·.addText piece.value)
  else { state with pieces := piece :: state.pieces }

/-- Adds text. -/
def pushText (value : List Char) (state : State) : State :=
  state.push (.ofValue .text value)

/-- Adds text with an expression. -/
def pushTextAs (value output : List Char) (state : State) : State :=
  state.push (.ofOutput .text value output)

/-- Adds to the own text of the last piece and to the expression. -/
def extend (text : List Char) (state : State) : State :=
  (state.changeLast fun last => { last with value := last.value ++ text }).write text

/-- Opens parentheses with a mark, after the mark. -/
def openExtension (mark : Mark) (state : State) : State :=
  let kind := if mark = .any then Kind.star else .extension
  let extension : Extension := ⟨mark, state.parens, []⟩
  let output := if state.output.isEmpty then beforeUnit else []
  let state := { state with parens := state.parens + 1 }.enter .parentheses
  let state := (state.push (.ofOutput kind mark.value output)).skip 1
  let parenthesis := Piece.ofOutput .parenthesis ['('] mark.opening
  let state := state.push { parenthesis with isExtension := true }
  { state with extensions := extension :: state.extensions }

end State

end Stencil.Files.Glob.Expression
