import Stencil.Text

/-!
Positions in a template text. The main statement: walking over two texts one after the
other is walking over their concatenation.
-/

namespace Stencil

/-- A place in a text: `offset` counts 16-bit units from the start, `line` and `column`
count from one.
-/
structure Position where
  offset : Nat
  line : Nat
  column : Nat
  deriving DecidableEq, Repr, Inhabited

namespace Position

/-- The start of a text. -/
def start : Position := ⟨0, 1, 1⟩

/-- The position just after a character: a line feed starts a new line. -/
def step (position : Position) (c : Char) : Position :=
  if c = '\n' then ⟨position.offset + 1, position.line + 1, 1⟩
  else
    ⟨position.offset + Text.unitWidth c, position.line,
      position.column + Text.unitWidth c⟩

/-- The position just after a text. -/
def after (position : Position) (text : List Char) : Position :=
  text.foldl step position

/-- The `line:column` form shown to people. -/
def text (position : Position) : String :=
  toString position.line ++ ":" ++ toString position.column

@[simp] theorem after_nil (position : Position)
    : position.after [] = position :=
  rfl

@[simp] theorem after_cons (position : Position) (c : Char) (text : List Char)
    : position.after (c :: text) = (position.step c).after text :=
  rfl

@[simp] theorem after_append (position : Position) (first second : List Char)
    : position.after (first ++ second) = (position.after first).after second :=
  List.foldl_append

end Position

end Stencil
