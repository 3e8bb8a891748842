import Stencil.Command
import Stencil.Text.Search

/-!
Help texts: a usage line, a summary, and sections of two columns.
-/

namespace Stencil.Command

/-- The width that help texts fill. -/
def helpWidth : Nat := 80

/-- Lines of at most `width` characters with as many words each as fit. The first line begins
with `line`. A word that is longer has a line of its own.
-/
def fillLines (width : Nat) (line : String) : List String → List String
  | [] => [line]
  | word :: words =>
    if line.length + 1 + word.length ≤ width then
      fillLines width (line ++ " " ++ word) words
    else line :: fillLines width word words

/-- A text in lines of at most `width` characters. -/
def wrap (width : Nat) (text : String) : List String :=
  match (Text.splitOn ' ' text.toList).map String.ofList with
  | [] => []
  | word :: words => fillLines width word words

/-- Blanks. -/
def blanks (count : Nat) : String :=
  String.ofList (List.replicate count ' ')

/-- A row of two columns: a term in a column of `width` characters, and its description
wrapped beside it.
-/
def row (width : Nat) (term description : String) : List String :=
  let margin := "  " ++ blanks (width + 2)
  match wrap (helpWidth - 2 - (width + 2) - 1) description with
  | [] => []
  | first :: rest =>
    ("  " ++ term ++ blanks (width - term.length) ++ "  " ++ first) :: rest.map (margin ++ ·)

/-- A section: its heading and its rows. -/
structure HelpSection where
  heading : String
  rows : List (String × String)
  deriving DecidableEq, Repr, Inhabited

namespace Topic

/-- The usage of a topic. -/
def usage : Topic → String
  | program => programName ++ " [options] [command]"
  | command topic => programName ++ " " ++ topic.usage

/-- What the program or the command does. -/
def summary : Topic → String
  | program => programSummary
  | command topic => topic.summary

/-- The section on options. -/
def optionSection (topic : Topic) : HelpSection :=
  ⟨"Options:", topic.flags.map fun flag => (flag.label, flag.description)⟩

/-- The sections of the help on a topic. -/
def sections : Topic → List HelpSection
  | program =>
    let helpRow := ("help [command]", helpFlag.description)
    [optionSection program,
      ⟨"Commands:", (all.map fun command => (command.usage, command.summary))
        ++ [helpRow]⟩]
  | command topic =>
    [⟨"Arguments:", [(topic.operand.name, topic.operand.description)]⟩,
      optionSection (.command topic)]

/-- The help on a topic. -/
def help (topic : Topic) : String :=
  let terms := topic.sections.flatMap fun part => part.rows.map (·.1.length)
  let width := terms.foldl max 0
  let lines (part : HelpSection) : List String :=
    part.heading :: part.rows.flatMap fun item => row width item.1 item.2
  let paragraphs :=
    ["Usage: " ++ topic.usage] :: wrap (helpWidth - 1) topic.summary
      :: topic.sections.map lines
  "\n\n".intercalate (paragraphs.map ("\n".intercalate ·)) ++ "\n"

end Topic

end Stencil.Command
