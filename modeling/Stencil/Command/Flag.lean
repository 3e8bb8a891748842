/-!
The options of commands: how they are spelled and what they take.
-/

namespace Stencil.Command

/-- The options. -/
inductive Key where
  | version
  | verbose
  | quiet
  | data
  | override
  | output
  | maxSteps
  | json
  | list
  | config
  | dryRun
  | help
  deriving DecidableEq, Repr, Inhabited

/-- The values that an option takes, with the word for them. -/
inductive Takes where
  | nothing
  | one (word : String)
  | many (word : String)
  deriving DecidableEq, Repr, Inhabited

/-- An option of a command. -/
structure Flag where
  key : Key
  short? : Option Char
  long : String
  takes : Takes
  description : String
  deriving DecidableEq, Repr, Inhabited

namespace Flag

/-- The long spelling of an option. -/
def longText (flag : Flag) : String :=
  "--" ++ flag.long

/-- The short spelling of an option, if it has one. -/
def shortText? (flag : Flag) : Option String :=
  flag.short?.map fun letter => "-" ++ letter.toString

/-- Whether a word spells an option. -/
def isSpelledBy (flag : Flag) (word : String) : Bool :=
  word == flag.longText || some word == flag.shortText?

/-- Whether an option takes values. -/
def takesValue (flag : Flag) : Bool :=
  flag.takes != .nothing

/-- Whether an option takes all values that follow it. -/
def takesMany (flag : Flag) : Bool :=
  match flag.takes with
  | .many _ => true
  | _ => false

/-- The spellings of an option with what it takes. -/
def label (flag : Flag) : String :=
  let spellings := ", ".intercalate (flag.shortText?.toList ++ [flag.longText])
  match flag.takes with
  | .nothing => spellings
  | .one word => spellings ++ " <" ++ word ++ ">"
  | .many word => spellings ++ " <" ++ word ++ "...>"

end Flag

end Stencil.Command
