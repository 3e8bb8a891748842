import Stencil.Data.Load
import Stencil.Failure
import Stencil.Files.Glob
import Stencil.Generate.Naming
import Stencil.Generate.Result
import Stencil.Text

/-!
Generating targets. All templates of a target are rendered before anything is written; what is
written goes to a new directory beside the output directory and then takes its place, so that a
target that fails leaves its earlier output alone.
-/

namespace Stencil.Generate

open Stencil.Files (Disk GlobQuery PathText.relative PathText.locate PathText.append
  PathText.parent)
open Stencil.Log (Logged)

/-- A rendered template with its text. -/
structure Rendered where
  template : String
  output : String
  text : String
  deriving DecidableEq, Repr, Inhabited

/-- The rendered template as a generated file. -/
def Rendered.file (rendered : Rendered) : GeneratedFile :=
  ⟨rendered.template, rendered.output, Text.units rendered.text.toList⟩

/-- What is to be written for a target. -/
structure Plan where
  sourceDir : String
  rendered : List Rendered
  copied : List String
  deriving DecidableEq, Repr, Inhabited

/-- Why a target fails, and the template that is at fault, if one is. -/
structure TargetFailure where
  template? : Option String
  cause : Failure
  deriving Repr

/-- The failure of no particular template. -/
def TargetFailure.general (cause : Failure) : TargetFailure := ⟨none, cause⟩

/-- The message of a target failure. -/
def TargetFailure.message (failure : TargetFailure) : String :=
  match failure.template? with
  | some template => template ++ ": " ++ failure.cause.message
  | none => failure.cause.message

/-- The patterns of what is no source: packages, and the output directory if it lies below the
source directory.
-/
def ignoredPatterns (sourceDir outputDir : String) : List String :=
  let below :=
    PathText.relative (PathText.locate [] sourceDir) (PathText.locate [] outputDir)
  let isBelow := below ≠ "" && !(['.', '.'].isPrefixOf below.toList)
  "**/node_modules/**" :: if isBelow then [below ++ "/**"] else []

/-- The search for files of a source directory. -/
def sourceQuery (patterns : List String) (sourceDir outputDir : String) : GlobQuery where
  patterns
  directory := sourceDir
  ignored := ignoredPatterns sourceDir outputDir
  isAbsolute := false

variable {m : Type → Type} [Monad m] [Disk m]

/-- The files of a source directory that patterns match. -/
def sourceFiles (patterns : List String) (sourceDir outputDir : String)
    : ExceptT Failure m (List String) :=
  (Files.Glob.run (sourceQuery patterns sourceDir outputDir)
    : ExceptT Files.GlobFault m (List String)).adapt .glob

/-- The templates of a source directory, in order. -/
def findTemplates (naming : Config.Naming) (sourceDir outputDir : String)
    : ExceptT Failure m (List String) := do
  let files ← sourceFiles [naming.pattern] sourceDir outputDir
  return Text.sortByUnits (files.filter naming.isTemplate)

/-- The files of a source directory that a target copies, in order. Templates are not copied.
-/
def findStatics (naming : Config.Naming) (target : Config.Target) (sourceDir outputDir : String)
    : ExceptT Failure m (List String) := do
  if target.statics.isEmpty then return []
  else
    let files ← sourceFiles target.statics sourceDir outputDir
    return Text.sortByUnits (files.filter fun file => !naming.isTemplate file)

/-- The text of a template text, within a step budget. -/
def renderText (text : String) (context : Context) (maxSteps : Nat) : Except Failure String :=
  match Template.tokenize text with
  | .error cause => .error (.template cause)
  | .ok tokens =>
    match Template.renderTokens tokens context.root maxSteps with
    | .error stop => .error (.render (.stopped stop))
    | .ok text => .ok text

/-- A template of a source directory, rendered. -/
def renderFile (config : Config) (context : Context) (sourceDir template : String)
    : ExceptT TargetFailure m Rendered := do
  let text ← (Files.readText (PathText.append sourceDir template)
    : ExceptT Files.Fault m String).adapt (.general ∘ .file)
  match renderText text context config.maxSteps with
  | .error cause => throw ⟨some template, cause⟩
  | .ok text => return ⟨template, (config.naming.outputName? template).getD template, text⟩

/-- What is to be written for a target. -/
def planTarget (root : String) (config : Config) (target : Config.Target)
    : ExceptT TargetFailure (Logged m) Plan := do
  let sourceDir := target.sourceDir root
  let outputDir := target.outputDir root config.naming
  let below {α : Type} (action : ExceptT Failure m α)
      : ExceptT TargetFailure (Logged m) α :=
    ExceptT.mk (StateT.lift (action.adapt .general).run)
  if !(← ExceptT.lift (StateT.lift (Files.isFolder sourceDir : m Bool))) then
    throw (.general (.generation (.noSource target.name sourceDir)))
  let dataFiles := target.data.map (Files.PathText.resolve root)
  let context ← (Data.loadContext dataFiles []
    : ExceptT Data.Error (Logged m) Context).adapt (.general ∘ .data)
  let templates ← below (findTemplates config.naming sourceDir outputDir)
  let rendered ← templates.mapM fun template =>
    ExceptT.mk (StateT.lift (renderFile config context sourceDir template
      : ExceptT TargetFailure m Rendered).run)
  let copied ← below (findStatics config.naming target sourceDir outputDir)
  match copied.find? fun file => rendered.any (·.output == file) with
  | some file => throw (.general (.generation (.clash target.name file)))
  | none => return ⟨sourceDir, rendered, copied⟩

/-- Writes the files of a plan below a directory. -/
def writeFiles (directory : String) (plan : Plan) : ExceptT Files.Fault m Unit := do
  plan.rendered.forM fun rendered =>
    Files.writeText (PathText.append directory rendered.output) rendered.text
  plan.copied.forM fun file =>
    Files.copyFile (PathText.append plan.sourceDir file) (PathText.append directory file)

/-- The start of the names of directories that are written before they take their place. -/
def freshStem : String := ".docstamp-"

/-- Writes a plan to a new directory and puts that in the place of the output directory. The
new directory is removed if that fails.
-/
def writeOutput (outputDir : String) (plan : Plan) : ExceptT Failure m Unit := do
  let fresh ← (Files.makeFreshIn (PathText.parent outputDir) freshStem
    : ExceptT Files.Fault m String).adapt .file
  let written ← Files.attempt do
    writeFiles fresh plan
    (Files.replaceFolder fresh outputDir : ExceptT Files.Fault m Unit)
  match written with
  | .ok () => return ()
  | .error fault =>
    (Disk.remove fresh : ExceptT Files.Fault m Unit).adapt .file
    throw (.generation (.write outputDir fault.message))

/-- The label of the log entries of generation runs. -/
def logLabel : String := "generate"

/-- The log entry on a target that has been generated. -/
def doneEntry (target : String) (outputDir : String) (plan : Plan) : Log.Entry where
  label := logLabel
  severity := .debug
  message :=
    "Rendered " ++ toString plan.rendered.length ++ " template(s) and copied "
      ++ toString plan.copied.length ++ " file(s) for " ++ target
  payload? := some (.data (.record [("outputDir", .text outputDir)]))

/-- Plans a target and, unless the run is dry, writes it. -/
def performTarget (root : String) (config : Config) (isDry : Bool) (target : Config.Target)
    : ExceptT TargetFailure (Logged m) Plan := do
  let outputDir := target.outputDir root config.naming
  let plan ← planTarget root config target
  if !isDry then
    ExceptT.mk (StateT.lift ((writeOutput outputDir plan : ExceptT Failure m Unit).adapt
      .general).run)
  ExceptT.lift (Log.note (doneEntry target.name outputDir plan))
  return plan

/-- The result of a target from the outcome of performing it. -/
def resultOf (target outputDir : String) : Except TargetFailure Plan → Result
  | .ok plan =>
    { target, success := true, outputDir
      files := plan.rendered.map Rendered.file
      copied := plan.copied }
  | .error failure =>
    { target, success := false, outputDir, files := [], copied := []
      template? := failure.template?
      error? := some failure.message
      code? := failure.cause.code? }

/-- Generates a target. -/
def generateTarget (root : String) (config : Config) (isDry : Bool) (target : Config.Target)
    : Logged m Result := do
  let outcome ← (performTarget root config isDry target
    : ExceptT TargetFailure (Logged m) Plan).run
  return resultOf target.name (target.outputDir root config.naming) outcome

/-- The log entry on a target that has failed. -/
def failedEntry (result : Result) : Log.Entry where
  label := logLabel
  severity := .warn
  message := "Failed to generate " ++ result.target ++ ": " ++ result.error?.getD "undefined"

/-- Generates the named targets, or all targets. One that fails does not stop the others. -/
def generateAll (root : String) (config : Config) (names : List String) (isDry : Bool)
    : ExceptT Config.Error (Logged m) Summary := do
  let targets ← ExceptT.mk (pure (config.select names))
  let results ← ExceptT.lift <| targets.mapM fun target => do
    let result ← (generateTarget root config isDry target : Logged m Result)
    if !result.success then Log.note (failedEntry result)
    return result
  return .ofResults results

end Stencil.Generate
