import Stencil.Command.Help
import Stencil.Command.Parse
import Stencil.Config.Load
import Stencil.Generate.Target
import Stencil.Report.Human
import Stencil.Report.Machine

/-!
Running command lines: what a program call writes to its outputs, and how it ends.
-/

namespace Stencil.Command

open Stencil.Files (Disk)
open Stencil.Log (Logged)

/-- What a program call leaves behind. -/
structure Outcome where
  exitCode : Nat
  stdout : String
  stderr : String
  deriving DecidableEq, Repr, Inhabited

/-- What a request comes to, before its log is written out. -/
structure Answer where
  succeeds : Bool
  stdout : String
  deriving DecidableEq, Repr, Inhabited

/-- A report, which ends its line. -/
def Answer.report (succeeds : Bool) (text : String) : Answer :=
  ⟨succeeds, text ++ "\n"⟩

variable {m : Type → Type} [Monad m] [Disk m]

/-- The text of a template file rendered with data files and overrides, within a step budget
or that of the project.
-/
def renderTemplate (template : String) (options : RenderOptions)
    : ExceptT Failure (Logged m) String := do
  let below {ε : Type} (wrap : ε → Failure) {α : Type} (action : ExceptT ε m α)
      : ExceptT Failure (Logged m) α :=
    ExceptT.mk (StateT.lift (action.adapt wrap).run)
  let root ← ExceptT.lift (StateT.lift (Disk.workingDirectory : m String))
  let config ← below .config (Config.load root none)
  let overrides ← ExceptT.mk (pure ((options.overrides.mapM Data.Override.parse).mapError .data))
  let context ← (Data.loadContext options.data overrides
    : ExceptT Data.Error (Logged m) Context).adapt .data
  let text ← below .file (Files.readText template)
  ExceptT.mk <| pure <|
    Generate.renderText text context (options.maxSteps?.getD config.maxSteps)

/-- The log entry on a rendered template. -/
def renderedEntry (template output : String) : Log.Entry where
  label := ""
  severity := .success
  message := "Rendered " ++ template ++ " → " ++ output

/-- Renders a template to a file or to the standard output. -/
def renderTo (template : String) (options : RenderOptions)
    : ExceptT Failure (Logged m) String := do
  let text ← renderTemplate template options
  match options.output?.filter (· ≠ "") with
  | some output =>
    ExceptT.mk (StateT.lift ((Files.writeText output text
      : ExceptT Files.Fault m Unit).adapt Failure.file).run)
    ExceptT.lift (Log.note (renderedEntry template output))
    return ""
  | none => return text

/-- The log entry with a message about a failure. -/
def failureEntry (message : String) : Log.Entry where
  label := ""
  severity := .error
  message

/-- Renders a template. A failure is reported in the log, or as JSON. -/
def runRender (isStyled : Bool) (template : String) (options : RenderOptions)
    : Logged m Answer := do
  match ← (renderTo template options : ExceptT Failure (Logged m) String).run with
  | .ok text => return ⟨true, text⟩
  | .error failure =>
    let problem := Report.Problem.ofFailure failure
    if options.asJson then
      return .report false (Report.Machine.problem problem (some template))
    else
      Log.note (failureEntry (Report.Human.problem ⟨isStyled, false⟩ problem (some template)))
      return ⟨false, ""⟩

/-- The finding on the text of a template, or on the fault of reading it. -/
def findingOf : Except Files.Fault String → Report.Finding
  | .error fault => .problem (.ofFailure (.file fault))
  | .ok text =>
    match Template.Compiled.ofText text none with
    | .error cause => .problem (.ofFailure (.template cause))
    | .ok template => .outline template.outline

/-- Checks a template file. -/
def checkFile (file : String) : m Report.CheckReport := do
  return ⟨file, findingOf (← (Files.readText file : ExceptT Files.Fault m String).run)⟩

/-- Checks template files. -/
def runCheck (isStyled : Bool) (templates : List String) (options : CheckOptions)
    : Logged m Answer := do
  let reports ← templates.mapM fun file => (StateT.lift (checkFile file) : Logged m _)
  let text :=
    if options.asJson then Report.Machine.check reports
    else Report.Human.check ⟨isStyled, options.isVerbose⟩ reports
  return .report (!reports.any (·.finding.isProblem)) text

/-- Loads the configuration and generates targets. -/
def generateTargets (names : List String) (options : GenerateOptions)
    : ExceptT Config.Error (Logged m) Generate.Summary := do
  let root ← ExceptT.lift (StateT.lift (Disk.workingDirectory : m String))
  let config ← (ExceptT.mk (StateT.lift (Config.load root options.config?
    : ExceptT Config.Error m Config).run) : ExceptT Config.Error (Logged m) Config)
  Generate.generateAll root config names options.isDry

/-- Generates targets. -/
def runGenerate (isStyled : Bool) (names : List String) (options : GenerateOptions)
    : Logged m Answer := do
  match ← (generateTargets names options
    : ExceptT Config.Error (Logged m) Generate.Summary).run with
  | .error cause =>
    Log.note (failureEntry cause.diagnostic.message)
    return ⟨false, ""⟩
  | .ok summary =>
    let text :=
      if options.asJson then
        Report.Machine.generate Report.Machine.fileOrder summary options.isDry
      else Report.Human.generate ⟨isStyled, options.isVerbose⟩ summary options.isDry
    return .report summary.failed.isEmpty text

/-- Runs a request. -/
def Request.run (isStyled : Bool) : Request → Logged m Answer
  | .render template options => runRender isStyled template options
  | .check templates options => runCheck isStyled templates options
  | .generate names options => runGenerate isStyled names options

/-- The outcome of a command line without work. -/
def Halt.outcome : Halt → Outcome
  | .version => ⟨0, Command.version ++ "\n", ""⟩
  | .help topic => ⟨0, topic.help, ""⟩
  | .guidance => ⟨1, "", Topic.program.help⟩
  | .misuse cause => ⟨1, "", cause.message ++ "\n"⟩

/-- The outcome of an answer with its log, last entry first. -/
def Answer.outcome (level : Log.Level) (isStyled : Bool) (answer : Answer)
    (log : List Log.Entry) : Outcome where
  exitCode := if answer.succeeds then 0 else 1
  stdout := answer.stdout
  stderr := String.join (log.reverse.map (Log.Entry.textAt level isStyled))

/-- Runs a program call. -/
def run (isStyled : Bool) (words : List String) : m Outcome := do
  match parse words with
  | .error halt => return halt.outcome
  | .ok invocation =>
    let (answer, log) ← (invocation.request.run isStyled : Logged m Answer).run []
    return answer.outcome invocation.level isStyled log

end Stencil.Command
