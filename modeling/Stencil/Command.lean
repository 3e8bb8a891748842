import Stencil.Command.Flag

/-!
The commands: their names, operands and options.
-/

namespace Stencil

/-- The commands. -/
inductive Command where
  | render
  | check
  | generate
  deriving DecidableEq, Repr, Inhabited

namespace Command

/-- What a command works on. -/
structure Operand where
  name : String
  isRequired : Bool
  isMany : Bool
  description : String
  deriving DecidableEq, Repr, Inhabited

/-- An operand as usage lines show it. -/
def Operand.label (operand : Operand) : String :=
  let name := operand.name ++ if operand.isMany then "..." else ""
  if operand.isRequired then "<" ++ name ++ ">" else "[" ++ name ++ "]"

/-- The name of the program. -/
def programName : String := "docstamp"

/-- The version of the program. -/
def version : String := "0.1.0"

/-- What the program does. -/
def programSummary : String := "Render text templates from TOML, YAML or JSON data"

/-- The option that shows help. -/
def helpFlag : Flag :=
  ⟨.help, some 'h', "help", .nothing, "display help for command"⟩

/-- The options of the program, which all commands understand. -/
def programFlags : List Flag :=
  [⟨.version, some 'V', "version", .nothing, "output the version number"⟩,
    ⟨.verbose, none, "verbose", .nothing, "Show debug logging"⟩,
    ⟨.quiet, none, "quiet", .nothing, "Only show errors"⟩]

/-- All commands. -/
def all : List Command := [render, check, generate]

/-- The name of a command. -/
def name : Command → String
  | render => "render"
  | check => "check"
  | generate => "generate"

/-- The command with a name. -/
def ofName? (name : String) : Option Command :=
  all.find? (·.name == name)

/-- What a command does. -/
def summary : Command → String
  | render => "Render a template with TOML, YAML or JSON data"
  | check => "Check template syntax and list the keys each template uses"
  | generate =>
    "Render every template of the configured targets into their output directories"

/-- The operand of a command. -/
def operand : Command → Operand
  | render => ⟨"template", true, false, "Template file to render"⟩
  | check => ⟨"templates", true, true, "Template files to check"⟩
  | generate => ⟨"targets", false, true, "Target names (default: all targets)"⟩

/-- The options of a command. -/
def flags : Command → List Flag
  | render =>
    [⟨.data, some 'd', "data", .many "files", "Data files, merged left to right"⟩,
      ⟨.override, none, "set", .many "assignments",
        "Override string values, e.g. paper.title=\"Draft\""⟩,
      ⟨.output, some 'o', "output", .one "file",
        "Write the result to a file instead of stdout"⟩,
      ⟨.maxSteps, none, "max-steps", .one "n", "Step budget for rendering"⟩,
      ⟨.json, none, "json", .nothing, "Report errors as JSON"⟩]
  | check =>
    [⟨.json, none, "json", .nothing, "Output as JSON"⟩,
      ⟨.list, some 'l', "list", .nothing, "List the keys each template references"⟩]
  | generate =>
    [⟨.config, some 'c', "config", .one "path",
        "Config file (default: .docstamp/config.yaml)"⟩,
      ⟨.dryRun, none, "dry-run", .nothing, "Render without writing any files"⟩,
      ⟨.json, none, "json", .nothing, "Output as JSON"⟩,
      ⟨.list, some 'l', "list", .nothing, "List generated files"⟩]

/-- A command with its options and operand, as usage lines show it. -/
def usage (command : Command) : String :=
  command.name ++ " [options] " ++ command.operand.label

/-- What help can be about. -/
inductive Topic where
  | program
  | command (command : Command)
  deriving DecidableEq, Repr, Inhabited

/-- The options that help on a topic shows. -/
def Topic.flags : Topic → List Flag
  | program => programFlags ++ [helpFlag]
  | command topic => topic.flags ++ [helpFlag]

/-- The command with a name has that name. -/
theorem name_of_ofName? {name : String} {command : Command}
    (h : ofName? name = some command)
    : command.name = name := by
  simpa using List.find?_some h

end Command

end Stencil
