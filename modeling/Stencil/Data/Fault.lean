/-!
Faults of data texts: why reading stopped, and where.
-/

namespace Stencil.Data

/-- The reason why a data text cannot be read, and the text left where reading stopped. -/
structure Fault where
  reason : String
  rest : List Char
  deriving DecidableEq, Repr, Inhabited

namespace Fault

/-- The line, counted from one, on which reading stopped. -/
def line (fault : Fault) (text : List Char) : Nat :=
  1 + (text.take (text.length - fault.rest.length)).count '\n'

/-- The reason together with the line. -/
def describe (fault : Fault) (text : List Char) : String :=
  fault.reason ++ " on line " ++ toString (fault.line text)

end Fault

/-- A reader takes something off the start of a text and leaves the rest. -/
abbrev Reader (α : Type) := List Char → Except Fault (α × List Char)

/-- Stops reading. -/
def fail {α : Type} (reason : String) (rest : List Char) : Except Fault α :=
  .error ⟨reason, rest⟩

/-- The number spelled by exactly `count` hexadecimal digits at the start of a text. -/
def hexDigits? (digitValue? : Char → Option Nat) (count : Nat) (text : List Char)
    : Option (Nat × List Char) := do
  let digits := text.take count
  if digits.length = count then
    let n ← digits.foldlM (fun n c => (digitValue? c).map (16 * n + ·)) 0
    some (n, text.drop count)
  else none

end Stencil.Data
