import Stencil.Log
import Stencil.Number

/-!
Requests: what a command line asks for once it is understood.
-/

namespace Stencil.Command

/-- The positive whole number that a text of ASCII digits gives, if it is a safe one. -/
def positiveInteger? (text : String) : Option Nat :=
  let digits := text.toList
  let value := digits.foldl (fun value digit => 10 * value + (digit.toNat - '0'.toNat)) 0
  if !digits.isEmpty && digits.all Char.isDigit && 0 < value && value ≤ Number.maxSafe then
    some value
  else none

/-- The complaint about a text that gives no such number. -/
def positiveIntegerHint : String := "Expected a positive integer."

/-- How a template is rendered. -/
structure RenderOptions where
  data : List String := []
  overrides : List String := []
  output? : Option String := none
  maxSteps? : Option Nat := none
  asJson : Bool := false
  deriving DecidableEq, Repr, Inhabited

/-- How templates are checked. -/
structure CheckOptions where
  asJson : Bool := false
  isVerbose : Bool := false
  deriving DecidableEq, Repr, Inhabited

/-- How targets are generated. -/
structure GenerateOptions where
  config? : Option String := none
  isDry : Bool := false
  asJson : Bool := false
  isVerbose : Bool := false
  deriving DecidableEq, Repr, Inhabited

/-- What is asked for. -/
inductive Request where
  | render (template : String) (options : RenderOptions)
  | check (templates : List String) (options : CheckOptions)
  | generate (names : List String) (options : GenerateOptions)
  deriving DecidableEq, Repr, Inhabited

/-- A request and the level at which its log is shown. -/
structure Invocation where
  level : Log.Level
  request : Request
  deriving DecidableEq, Repr, Inhabited

end Stencil.Command
