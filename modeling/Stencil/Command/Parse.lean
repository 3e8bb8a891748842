import Stencil.Command.Words
import Stencil.Text.Similar

/-!
Command lines: the words of a program call, understood as an invocation. The program takes its
own options wherever they stand; the first operand names the command, which takes the rest.
-/

namespace Stencil.Command

/-- The spellings that are like a word. Words that start with two hyphens are compared without
those.
-/
def similarTo (word : String) (spellings : List String) : List String :=
  let bare (text : String) : String := String.ofList (text.toList.drop 2)
  if ['-', '-'].isPrefixOf word.toList then
    (Text.closest (bare word) (spellings.map bare)).map ("--" ++ ·)
  else Text.closest word spellings

/-- The misuse of an unknown option where help is about a topic. -/
def unknownOption (topic : Topic) (word : String) : Misuse :=
  let flags :=
    match topic with
    | .program => Topic.program.flags
    | .command _ => topic.flags ++ Topic.program.flags
  let isLong := ['-', '-'].isPrefixOf word.toList
  .unknownOption word (if isLong then similarTo word (flags.map Flag.longText) else [])

/-- The name of the command that shows help. -/
def helpName : String := "help"

/-- The misuse of an unknown command. -/
def unknownCommand (word : String) : Misuse :=
  .unknownCommand word (similarTo word (all.map Command.name ++ [helpName]))

/-- Whether words ask for help. -/
def asksForHelp (words : List String) : Bool :=
  words.any helpFlag.isSpelledBy

/-- What the help command leads to. -/
def helpOn : List String → Halt
  | [] => .help .program
  | "" :: _ => .help .program
  | name :: _ =>
    match ofName? name with
    | some command => .help (.command command)
    | none => .guidance

/-- The request of a command with its options and operands. -/
def request (command : Command) (sorted : Sorted) (operands : List String) : Option Request :=
  match command, operands with
  | render, [] => none
  | render, template :: _ =>
    some <| .render template
      { data := sorted.values .data
        overrides := sorted.values .override
        output? := sorted.last? .output
        maxSteps? := (sorted.last? .maxSteps).bind positiveInteger?
        asJson := sorted.has .json }
  | check, [] => none
  | check, templates => some (.check templates ⟨sorted.has .json, sorted.has .list⟩)
  | generate, names =>
    some <| .generate names
      { config? := sorted.last? .config
        isDry := sorted.has .dryRun
        asJson := sorted.has .json
        isVerbose := sorted.has .list }

/-- Understands the words after a command: operands, and words that are not sorted yet. -/
def parseCommand (command : Command) (operands words : List String) : Except Halt Request := do
  let sorted ← sortWords command.flags none false words
  if asksForHelp sorted.unknown then throw (.help (.command command))
  match sorted.unknown with
  | word :: _ => throw (.misuse (unknownOption (.command command) word))
  | [] =>
    match request command sorted (operands ++ sorted.operands) with
    | some request => return request
    | none => throw (.misuse (.missingOperand command.operand))

/-- The level that the options of the program ask for. -/
def levelOf (sorted : Sorted) : Log.Level :=
  if sorted.has .verbose then .debug else if sorted.has .quiet then .error else .info

/-- The halt of a command line without a known command. -/
def haltOf (sorted : Sorted) : Halt :=
  if asksForHelp sorted.unknown then .help .program
  else
    match sorted.operands, sorted.unknown with
    | word :: _, _ => .misuse (unknownCommand word)
    | [], word :: _ => .misuse (unknownOption .program word)
    | [], [] => .guidance

/-- Understands the words of a program call. -/
def parse (words : List String) : Except Halt Invocation := do
  let sorted ← sortWords programFlags none false words
  match sorted.operands with
  | name :: operands =>
    match ofName? name with
    | some command =>
      return ⟨levelOf sorted, ← parseCommand command operands sorted.unknown⟩
    | none => throw (if name = helpName then helpOn operands else haltOf sorted)
  | [] => throw (haltOf sorted)

end Stencil.Command
