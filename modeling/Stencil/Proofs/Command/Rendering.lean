import Stencil.Command.Run
import Stencil.Proofs.Files.Contents
import Stencil.Proofs.Generate.Plans
import Stencil.Proofs.Outcome

/-! What a call of the render command leaves behind. All of its stages but the last one only read,
so a rendering is a function of the workspace before the call; its text goes to one place or to
none.
-/

namespace Stencil.Command

open Stencil.Files
open Stencil.Log

variable {before after : Workspace} {template : String} {options : RenderOptions}

-----------------------------------------------------------------------------------------
-- The stages of a rendering
-----------------------------------------------------------------------------------------

/-- The context of data files with overrides, or the first error in loading the files, in merging
them with the overrides or in converting the result.
-/
def loadedContext (before : Workspace) (files : List String) (overrides : List Data.Override)
    : Except Data.Error Context := do
  let records ← files.mapM fun file => (Files.outcome (Data.loadRecord file) before).1
  Data.contextOf records overrides

/-- The text that a template file is rendered to with data files and overrides, or the failure of
the first stage that fails: loading the configuration, reading the overrides, loading the data
files, merging and converting them, and reading, tokenizing and rendering the template.
-/
@[irreducible] def rendering (before : Workspace) (template : String) (options : RenderOptions)
    : Except Failure String := do
  let root := PathText.absolute before.directory
  let config ← (Files.outcome (Config.load root none) before).1.mapError .config
  let overrides ← (options.overrides.mapM Data.Override.parse).mapError .data
  let context ← (loadedContext before options.data overrides).mapError .data
  let text ← (Files.outcome (readText template) before).1.mapError .file
  let tokens ← (Template.tokenize text).mapError .template
  (Template.renderTokens tokens context.root (options.maxSteps?.getD config.maxSteps)).mapError
    fun stop => .render (.stopped stop)

theorem readsOnly_isThere {ε : Type} (path : String)
    : ReadsOnly (ExceptT.lift (isThere path) : ExceptT ε (StateM Workspace) Bool) :=
  readsOnly_isDirectory path

theorem readsOnly_loadFile (file : String)
    : ReadsOnly (Config.loadFile file : ExceptT Config.Error (StateM Workspace) Config) := by
  refine (Generate.readsOnly_readText _).attempt.bind fun text => ?_
  split
  · exact readsOnly_throw _
  · split
    · exact readsOnly_throw _
    · exact readsOnly_pure _

theorem readsOnly_load (root : String) (named? : Option String)
    : ReadsOnly (Config.load root named? : ExceptT Config.Error (StateM Workspace) Config) := by
  refine (readsOnly_isThere _).bind fun isThere => ?_
  cases isThere with
  | true => exact readsOnly_loadFile _
  | false =>
      rw [if_neg Bool.false_ne_true]
      split
      · exact readsOnly_throw _
      · exact readsOnly_pure _

/-- Data files are loaded one after the other, each from the workspace before. -/
theorem yields_loadContext (files : List String) (overrides : List Data.Override)
    (before : Workspace)
    : Yields (Data.loadContext files overrides) before
        (loadedContext before files overrides) := by
  have record (file : String)
      : Yields (do
            ExceptT.lift (Log.note (Data.loadingEntry file))
            ExceptT.mk (StateT.lift (Data.loadRecord file : ExceptT _ (StateM Workspace) _).run))
          before (Files.outcome (Data.loadRecord file) before).1 :=
    (yields_note (Data.loadingEntry file) before).ok_bind
      (yields_lift (Generate.readsOnly_loadRecord file) before)
  unfold Data.loadContext loadedContext
  exact (Yields.mapM record files).bind fun records => yields_pure _ before

/-- Rendering a text is tokenizing it and rendering its tokens. -/
theorem renderText_eq_bind (text : String) (context : Context) (budget : Nat)
    : Generate.renderText text context budget
      = (Template.tokenize text).mapError .template >>= fun tokens =>
          (Template.renderTokens tokens context.root budget).mapError fun stop =>
            .render (.stopped stop) := by
  rw [Generate.renderText]
  cases Template.tokenize text with
  | error cause => rfl
  | ok tokens =>
      simp only [Except.mapError, bind, Except.bind]
      cases Template.renderTokens tokens context.root budget <;> rfl

/-- A template is rendered stage by stage, without any change to the workspace. -/
theorem yields_renderTemplate (template : String) (options : RenderOptions) (before : Workspace)
    : Yields (renderTemplate template options) before (rendering before template options) := by
  have below {ε α : Type} (wrap : ε → Failure) {action : ExceptT ε (StateM Workspace) α}
      (h : ReadsOnly action)
      : Yields (ExceptT.mk (StateT.lift (action.adapt wrap).run)
          : ExceptT Failure (Logged (StateM Workspace)) α) before
          ((Files.outcome action before).1.mapError wrap) :=
    yields_lift (h.adapt wrap) before
  have root : Yields (ExceptT.lift (StateT.lift (Disk.workingDirectory : StateM Workspace String))
      : ExceptT Failure (Logged (StateM Workspace)) String) before
      (.ok (PathText.absolute before.directory)) :=
    fun log => ⟨log, rfl⟩
  unfold renderTemplate rendering
  refine root.ok_bind ?_
  refine (below .config (readsOnly_load _ none)).bind fun config => ?_
  refine (yields_pure _ before).bind fun overrides => ?_
  refine ((yields_loadContext _ _ before).adapt Failure.data).bind fun context => ?_
  refine (below .file (Generate.readsOnly_readText _)).bind fun text => ?_
  rw [← renderText_eq_bind]
  exact yields_pure _ before

-----------------------------------------------------------------------------------------
-- Where the text goes
-----------------------------------------------------------------------------------------

/-- The file that the text of a rendering is written to, if one is named by more than nothing. -/
def RenderOptions.target? (options : RenderOptions) : Option String :=
  options.output?.filter (· ≠ "")

/-- What comes of a rendering for the standard output, or the failure of it or of writing its file,
and the workspace after it.
-/
def delivery (before : Workspace) (template : String) (options : RenderOptions)
    : Except Failure String × Workspace :=
  match rendering before template options, options.target? with
  | .error failure, _ => (.error failure, before)
  | .ok text, none => (.ok text, before)
  | .ok text, some file =>
    let (written, after) := Files.outcome (writeText file text) before
    ((written.mapError .file).map fun _ => "", after)

theorem loggedOutcome_renderTo (template : String) (options : RenderOptions) (log : List Log.Entry)
    (before : Workspace)
    : ∃ log',
        loggedOutcome (renderTo template options) log before
        = (((delivery before template options).1, log'), (delivery before template options).2) := by
  obtain ⟨log', rendered⟩ := yields_renderTemplate template options before log
  rw [renderTo, loggedOutcome_bind, rendered]
  unfold delivery
  generalize rendering before template options = result
  cases result with
  | error failure => exact ⟨log', rfl⟩
  | ok text =>
      simp only [RenderOptions.target?]
      cases options.output?.filter (· ≠ "") with
      | none => exact ⟨log', rfl⟩
      | some file =>
          simp only [loggedOutcome_bind, loggedOutcome_lift, outcome_adapt]
          rcases Files.outcome (writeText file text) before with ⟨_ | _, after⟩
          · exact ⟨log', rfl⟩
          · exact ⟨renderedEntry template file :: log', rfl⟩

/-- The answer to a rendering: its text, or the report of its failure. -/
def answerTo (template : String) (options : RenderOptions) : Except Failure String → Answer
  | .ok text => ⟨true, text⟩
  | .error failure =>
    if options.asJson then
      .report false (Report.Machine.problem (.ofFailure failure) (some template))
    else ⟨false, ""⟩

/-- What a program call comes to on a workspace, and the workspace after it. -/
def called (isStyled : Bool) (words : List String) (before : Workspace) : Outcome × Workspace :=
  Id.run ((run isStyled words : StateM Workspace Outcome).run before)

theorem run_runRender (isStyled : Bool) (template : String) (options : RenderOptions)
    (before : Workspace)
    : ∃ log,
        Id.run (((runRender isStyled template options : Logged (StateM Workspace) Answer).run []).run
          before)
        = ((answerTo template options (delivery before template options).1, log),
            (delivery before template options).2) := by
  obtain ⟨log, rendered⟩ := loggedOutcome_renderTo template options [] before
  have ran : ((renderTo template options : ExceptT Failure (Logged (StateM Workspace)) _).run.run
      []).run before = _ := rendered
  unfold runRender
  rw [StateT.run_bind, StateT.run_bind, ran]
  generalize delivery before template options = delivered
  obtain ⟨failure | text, after⟩ := delivered
  · unfold answerTo
    cases options.asJson with
    | true => exact ⟨log, rfl⟩
    | false => exact ⟨_ :: log, rfl⟩
  · exact ⟨log, rfl⟩

/-- A call of the render command answers with what the rendering delivers. -/
theorem called_eq {isStyled : Bool} {words : List String} {level : Level}
    (parsed : parse words = .ok ⟨level, .render template options⟩) (before : Workspace)
    : ∃ log,
        called isStyled words before
        = ((answerTo template options (delivery before template options).1).outcome level isStyled log,
            (delivery before template options).2) := by
  obtain ⟨log, answered⟩ := run_runRender isStyled template options before
  refine ⟨log, ?_⟩
  have ran : ((runRender isStyled template options : Logged (StateM Workspace) Answer).run []).run
      before = _ := answered
  generalize delivery before template options = delivered at ran ⊢
  unfold called run
  rw [parsed]
  change Id.run (StateT.run (StateT.run (runRender isStyled template options) [] >>= _) before) = _
  rw [StateT.run_bind, ran]
  rfl

-----------------------------------------------------------------------------------------
-- All or nothing
-----------------------------------------------------------------------------------------

/-- A call that failed: all files are as before, and the standard output has the failure as JSON or
nothing.
-/
structure Refused (template : String) (options : RenderOptions) (failure : Failure)
    (before after : Workspace) (outcome : Outcome) : Prop where
  exitCode : outcome.exitCode = 1
  files (place : Location) : after.tree.file? place = before.tree.file? place
  stdout : outcome.stdout
    = if options.asJson then
        Report.Machine.problem (.ofFailure failure) (some template) ++ "\n"
      else ""

/-- A call that wrote a text to the standard output, and nothing to the workspace. -/
structure Printed (text : String) (before after : Workspace) (outcome : Outcome) : Prop where
  exitCode : outcome.exitCode = 0
  workspace : after = before
  stdout : outcome.stdout = text

/-- A call that wrote a text to a file, which is what the path of the file then leads to, and nothing to
any other file or to the standard output.
-/
structure Written (file text : String) (before after : Workspace) (outcome : Outcome) : Prop where
  exitCode : outcome.exitCode = 0
  found : after.find file = .ok (.file (Encoding.encode text))
  files : PutsFile (before.locate file) (Encoding.encode text) before.tree after.tree
  stdout : outcome.stdout = ""

theorem refused_outcome {failure : Failure}
    (files : ∀ place, after.tree.file? place = before.tree.file? place) (level : Level)
    (isStyled : Bool) (log : List Log.Entry)
    : Refused template options failure before after
        ((answerTo template options (.error failure)).outcome level isStyled log) := by
  unfold answerTo
  cases asJson : options.asJson with
  | true => exact ⟨rfl, files, by rw [asJson]; rfl⟩
  | false => exact ⟨rfl, files, by rw [asJson]; rfl⟩

/-- A call of the render command does all or nothing. If one of the stages of the rendering fails,
or writing the file, the call is refused; otherwise the whole text goes to the file that is named or,
if none is, to the standard output.
-/
theorem called_render_all_or_nothing {isStyled : Bool} {words : List String} {level : Level}
    (parsed : parse words = .ok ⟨level, .render template options⟩) (before : Workspace)
    : let outcome := (called isStyled words before).1
      let after := (called isStyled words before).2
      match rendering before template options, options.target? with
      | .error failure, _ => Refused template options failure before after outcome
      | .ok text, none => Printed text before after outcome
      | .ok text, some file =>
        match (Files.outcome (writeText file text) before).1 with
        | .error fault => Refused template options (.file fault) before after outcome
        | .ok () => Written file text before after outcome := by
  obtain ⟨log, answered⟩ := called_eq parsed before
  rw [answered]
  unfold delivery
  generalize rendering before template options = result
  cases result with
  | error failure => exact refused_outcome (fun _ => rfl) level isStyled log
  | ok text =>
      cases options.target? with
      | none => exact ⟨rfl, rfl, rfl⟩
      | some file =>
          dsimp only
          generalize wrote : Files.outcome (writeText file text) before = written
          rcases written with ⟨fault | _, after⟩
          · exact refused_outcome (file?_of_writeText_eq_error wrote) level isStyled log
          · obtain ⟨puts, found⟩ := putsFile_of_writeText wrote
            exact ⟨rfl, found, puts, rfl⟩

/-- A directory with a configuration, a data file, a template of two placeholders and the file of an
earlier rendering.
-/
def sampleDirectory : Workspace where
  directory := []
  tree := ⟨[
    ([".docstamp"], .directory),
    ([".docstamp", "config.yaml"], .file (Encoding.encode "render:\n  max_steps: 9")),
    (["d.json"], .file (Encoding.encode "\x7b\"y\": \"w\"\x7d")),
    (["t"], .file (Encoding.encode "\x7b\x7bx\x7d\x7d\x7b\x7by\x7d\x7d")),
    (["out"], .file (Encoding.encode "old"))]⟩

/-- With a value for its first placeholder the template of the sample replaces the earlier rendering,
and without one that rendering stays.
-/
theorem called_render_all_or_nothing_sample
    : let replaces :=
        called false ["render", "t", "-d", "d.json", "--set", "x=v", "-o", "out"] sampleDirectory
      let keeps :=
        called false ["render", "t", "-d", "d.json", "--json", "-o", "out"] sampleDirectory
      replaces.1.exitCode = 0
        ∧ replaces.1.stdout = ""
        ∧ replaces.2.tree.file? ["out"] = some (Encoding.encode "vw")
        ∧ keeps.1.exitCode = 1
        ∧ keeps.2.tree.file? ["out"] = some (Encoding.encode "old") := by
  have parsed : parse ["render", "t", "-d", "d.json", "--set", "x=v", "-o", "out"]
      = .ok ⟨.info, .render "t"
          { data := ["d.json"], overrides := ["x=v"], output? := some "out" }⟩ := by
    decide +kernel
  have parsed' : parse ["render", "t", "-d", "d.json", "--json", "-o", "out"]
      = .ok ⟨.info, .render "t"
          { data := ["d.json"], output? := some "out", asJson := true }⟩ := by
    decide +kernel
  have rendered : (rendering sampleDirectory "t"
      { data := ["d.json"], overrides := ["x=v"], output? := some "out" }).toOption
      = some "vw" := by
    decide +kernel
  have unrendered : (rendering sampleDirectory "t"
      { data := ["d.json"], output? := some "out", asJson := true }).toOption = none := by
    decide +kernel
  have wrote : (Files.outcome (writeText "out" "vw") sampleDirectory).1.toOption = some () := by
    decide +kernel
  have replaces := @called_render_all_or_nothing _ _ false _ _ parsed sampleDirectory
  have keeps := @called_render_all_or_nothing _ _ false _ _ parsed' sampleDirectory
  rw [Stencil.Outcome.toOption_eq_some_iff] at rendered wrote
  have target : RenderOptions.target?
      { data := ["d.json"], overrides := ["x=v"], output? := some "out" } = some "out" :=
    rfl
  simp only [rendered, target, wrote] at replaces
  generalize rendering sampleDirectory "t"
    { data := ["d.json"], output? := some "out", asJson := true } = result at unrendered keeps
  cases result with
  | ok text => cases unrendered
  | error failure =>
      have location : sampleDirectory.locate "out" = ["out"] := by decide
      have puts := replaces.files ["out"]
      rw [location, if_pos rfl] at puts
      exact ⟨replaces.exitCode, replaces.stdout, puts, keeps.exitCode, keeps.files ["out"]⟩

end Stencil.Command
