import Stencil.Command
import Stencil.Command.Request

/-!
Halts: command lines that ask for no work, because they ask for a text or are misused.
-/

namespace Stencil.Command

/-- How a command line is misused. -/
inductive Misuse where
  /-- An option without the value that it takes. -/
  | missingValue (flag : Flag)
  /-- A value that is no positive whole number. -/
  | badNumber (flag : Flag) (value : String)
  /-- An unknown option, and the known ones that are like it. -/
  | unknownOption (word : String) (similar : List String)
  /-- An unknown command, and the known ones that are like it. -/
  | unknownCommand (word : String) (similar : List String)
  /-- A command without the operand that it needs. -/
  | missingOperand (operand : Operand)
  deriving DecidableEq, Repr, Inhabited

/-- The question whether one of several words was meant; nothing for no words. -/
def suggestion : List String → String
  | [] => ""
  | [word] => "\n(Did you mean " ++ word ++ "?)"
  | words => "\n(Did you mean one of " ++ ", ".intercalate words ++ "?)"

/-- The message about a misuse. -/
def Misuse.message : Misuse → String
  | missingValue flag => "error: option '" ++ flag.label ++ "' argument missing"
  | badNumber flag value =>
    "error: option '" ++ flag.label ++ "' argument '" ++ value ++ "' is invalid. "
      ++ positiveIntegerHint
  | unknownOption word similar =>
    "error: unknown option '" ++ word ++ "'" ++ suggestion similar
  | unknownCommand word similar =>
    "error: unknown command '" ++ word ++ "'" ++ suggestion similar
  | missingOperand operand => "error: missing required argument '" ++ operand.name ++ "'"

/-- Why a command line leads to no work. -/
inductive Halt where
  | version
  /-- Help that is asked for. -/
  | help (topic : Topic)
  /-- Help for want of a command. -/
  | guidance
  | misuse (cause : Misuse)
  deriving DecidableEq, Repr, Inhabited

end Stencil.Command
