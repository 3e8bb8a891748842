import Stencil.Proofs.Config.Accepted
import Stencil.Proofs.Generate.Sources

/-! What generating a target does to a workspace. Whatever its result, nothing outside the output
directory changes, and a target that fails changes no file at all.
-/

namespace Stencil.Generate

open Stencil.Files
open Stencil.Log (Logged loggedOutcome)

variable {before after : Workspace} {root : String} {config : Config} {target : Config.Target}
  {isDry : Bool} {log : List Log.Entry} {result : Result}

/-- The result of generating a target, and the workspace after it. -/
def generated (root : String) (config : Config) (isDry : Bool) (target : Config.Target)
    (log : List Log.Entry) (workspace : Workspace)
    : Result × Workspace :=
  let ((result, _), after) := Id.run
    (((generateTarget root config isDry target : Logged (StateM Workspace) Result).run log).run
      workspace)
  (result, after)

/-- A target is planned, and its plan is written unless the run is dry. -/
theorem generated_eq (root : String) (config : Config) (isDry : Bool) (target : Config.Target)
    (log : List Log.Entry) (workspace : Workspace)
    : let outputDir := target.outputDir root config.naming
      let planned := (loggedOutcome
        (planTarget root config target : ExceptT TargetFailure (Logged (StateM Workspace)) Plan)
        log workspace).1.1
      generated root config isDry target log workspace
      = match planned with
        | .error failure => (resultOf target.name outputDir (.error failure), workspace)
        | .ok plan =>
          if isDry then (resultOf target.name outputDir (.ok plan), workspace)
          else
            match outcome (writeOutput outputDir plan) workspace with
            | (.ok (), after) => (resultOf target.name outputDir (.ok plan), after)
            | (.error cause, after) =>
              (resultOf target.name outputDir (.error (.general cause)), after) := by
  intro outputDir planned
  have performed : generated root config isDry target log workspace
      = let ((outcome, _), after) :=
          loggedOutcome (performTarget root config isDry target) log workspace
        (resultOf target.name outputDir outcome, after) := rfl
  rcases found : loggedOutcome (planTarget root config target) log workspace
    with ⟨⟨failure | plan, log'⟩, middle⟩
  all_goals
    cases onlyNotes_planTarget.eq found
    simp only [planned, found]
    rw [performed, performTarget, Log.loggedOutcome_bind, found]
  cases isDry with
  | true => rfl
  | false =>
      rcases written : outcome (writeOutput (target.outputDir root config.naming) plan) workspace
        with ⟨cause | _, after⟩ <;>
        simp only [Bool.not_false, if_true, Bool.false_eq_true, if_false, Log.loggedOutcome_bind,
          Log.loggedOutcome_lift, outcome_adapt, outputDir, written] <;>
        rfl

-----------------------------------------------------------------------------------------
-- What is left alone
-----------------------------------------------------------------------------------------

/-- No path of a file that a target would copy goes up. -/
def StaticsStayBelow (root : String) (config : Config) (target : Config.Target)
    (workspace : Workspace)
    : Prop :=
  ∀ files ∈ (outcome (findStatics config.naming target (target.sourceDir root)
      (target.outputDir root config.naming)) workspace).1.toOption,
    ∀ file ∈ files, ".." ∉ PathText.segments file

instance (root : String) (config : Config) (target : Config.Target) (workspace : Workspace)
    : Decidable (StaticsStayBelow root config target workspace) :=
  inferInstanceAs (Decidable (∀ files ∈ Except.toOption _, ∀ file ∈ files, _))

theorem Planned.staysBelow {plan : Plan} (planned : Planned root config target before plan)
    (wellFormed : before.tree.WellFormed) (accepted : Config.isSuffix config.naming.suffix = true)
    (statics : StaticsStayBelow root config target before)
    : plan.StaysBelow := by
  obtain ⟨_, context, _, isRendered⟩ := planned.isRendered wellFormed accepted
  refine ⟨fun rendered member => (isRendered rendered member).output.stays, statics _ ?_⟩
  rw [← planned.sourceDir, planned.copied]
  rfl

/-- What generating a target can come to. -/
inductive TargetRun (root : String) (config : Config) (target : Config.Target) (before : Workspace)
    : Bool → Result → Workspace → Prop
  | unplanned {isDry : Bool} (failure : TargetFailure)
    : TargetRun root config target before isDry
        (resultOf target.name (target.outputDir root config.naming) (.error failure)) before
  | dry {plan : Plan} (planned : Planned root config target before plan)
    : TargetRun root config target before true
        (resultOf target.name (target.outputDir root config.naming) (.ok plan)) before
  | written {plan : Plan} {after : Workspace} (planned : Planned root config target before plan)
    (wrote : outcome (writeOutput (target.outputDir root config.naming) plan) before
      = (.ok (), after))
    : TargetRun root config target before false
        (resultOf target.name (target.outputDir root config.naming) (.ok plan)) after
  | unwritten {plan : Plan} {cause : Failure} {after : Workspace}
    (planned : Planned root config target before plan)
    (failed : outcome (writeOutput (target.outputDir root config.naming) plan) before
      = (.error cause, after))
    : TargetRun root config target before false
        (resultOf target.name (target.outputDir root config.naming) (.error (.general cause))) after

theorem targetRun_of_generated
    (h : generated root config isDry target log before = (result, after))
    : TargetRun root config target before isDry result after := by
  rw [generated_eq] at h
  rcases found : loggedOutcome (planTarget root config target) log before
    with ⟨⟨failure | plan, log'⟩, middle⟩
  all_goals simp only [found] at h
  · cases h
    exact .unplanned failure
  have planned := planned_of_planTarget found
  cases isDry with
  | true =>
      cases h
      exact .dry planned
  | false =>
      rw [if_neg Bool.false_ne_true] at h
      split at h
      · rename_i wrote
        cases h
        exact .written planned wrote
      · rename_i failed
        cases h
        exact .unwritten planned failed

/-- A workspace in which a target that failed has left no trace: all files are as before, and in the
directory of the output directory, where a target is written first, there is nothing new.
-/
structure LeavesFiles (output : Location) (before after : Workspace) : Prop where
  files (place : Location) : after.tree.file? place = before.tree.file? place
  beside (names : Location) : names ≠ [] →
    after.tree.entry? (output.dropLast ++ names) = before.tree.entry? (output.dropLast ++ names)

theorem leavesFiles_of_addsFolders {output : Location}
    (adds : FileTree.AddsFolders output.dropLast before.tree after.tree)
    : LeavesFiles output before after := by
  refine ⟨adds.file?_eq, fun names below => ?_⟩
  rcases adds (output.dropLast ++ names) with same | ⟨_, _, isAbove⟩
  · exact same
  · have shorter := isAbove.length_le
    have positive := List.length_pos_iff.2 below
    rw [List.length_append] at shorter
    omega

/-- A target that fails changes no file, and a dry run changes nothing and has the same result,
unless it is the writing that fails.
-/
theorem leavesFiles_of_generated {data : Plain} (log : List Log.Entry)
    (accepted : Config.ofPlain data = .ok config)
    (wellFormed : before.tree.WellFormed) (statics : StaticsStayBelow root config target before)
    : let real := generated root config false target log before
      let dry := generated root config true target log before
      (real.1.success = false → LeavesFiles (outputOf root config target) before real.2)
      ∧ dry.2 = before
      ∧ (real.1.success = true ∨ dry.1.success = false → dry.1 = real.1) := by
  intro real dry
  have accepted := Config.isSuffix_of_ofPlain accepted
  refine ⟨fun failed => ?_, ?_, fun isSame => ?_⟩
  · have run : TargetRun root config target before false real.1 real.2 :=
      targetRun_of_generated (Prod.eta _).symm
    generalize real.1 = result at run failed
    generalize real.2 = after at run ⊢
    cases run with
    | unplanned failure => exact ⟨fun _ => rfl, fun _ _ => rfl⟩
    | written planned wrote => cases failed
    | unwritten planned unwritten =>
        rw [← absolute_outputOf] at unwritten
        exact leavesFiles_of_addsFolders (addsFolders_of_writeOutput wellFormed named_outputOf
          (planned.staysBelow wellFormed accepted statics) unwritten).2
  · have run : TargetRun root config target before true dry.1 dry.2 :=
      targetRun_of_generated (Prod.eta _).symm
    generalize dry.1 = result at run
    generalize dry.2 = after at run ⊢
    cases run <;> rfl
  · simp only [real, dry, generated_eq] at isSame ⊢
    generalize (loggedOutcome (planTarget root config target) log before).1.1 = planned at isSame ⊢
    cases planned with
    | error failure => rfl
    | ok plan =>
        rcases written : outcome (writeOutput (target.outputDir root config.naming) plan) before
          with ⟨cause | _, after⟩
        · simp [written, resultOf] at isSame
        · simp [written]

/-- A source directory with a template, a file that is none and a directory with the name of the
template's output, and what an earlier run has left.
-/
def samplePaper : Workspace where
  directory := []
  tree := ⟨[
    (["paper"], .directory),
    (["paper", "meta.tmp.typ"], .file (Encoding.encode "new")),
    (["paper", "notes.txt"], .file (Encoding.encode "notes")),
    (["paper", "meta.typ"], .directory),
    (["paper", "meta.typ", "old.txt"], .file (Encoding.encode "old")),
    (["paper", "_generated"], .directory),
    (["paper", "_generated", "old.typ"], .file (Encoding.encode "old"))]⟩

/-- A target for the sample that copies a file. -/
def sampleTarget (file : String) : Config.Target := ⟨"paper", "paper", [], [file], none⟩

def sampleConfig (file : String) : Config := ⟨10000000, ⟨".tmp", "_generated"⟩, [sampleTarget file]⟩

def sampleData (file : String) : Plain :=
  .record [("targets", .list [.record [("name", .text "paper"), ("source", .text "paper"),
    ("static", .list [.text file])]])]

/-- A file of the sample cannot be copied into the rendered file that has been written before. -/
theorem leavesFiles_of_generated_blocked
    : (generated "/" (sampleConfig "meta.typ/old.txt") false (sampleTarget "meta.typ/old.txt") []
        samplePaper).1.success = false
      ∧ LeavesFiles
          (outputOf "/" (sampleConfig "meta.typ/old.txt") (sampleTarget "meta.typ/old.txt"))
          samplePaper
          (generated "/" (sampleConfig "meta.typ/old.txt") false (sampleTarget "meta.typ/old.txt")
            [] samplePaper).2 := by
  have accepted : Config.ofPlain (sampleData "meta.typ/old.txt")
      = .ok (sampleConfig "meta.typ/old.txt") := rfl
  have statics : StaticsStayBelow "/" (sampleConfig "meta.typ/old.txt")
      (sampleTarget "meta.typ/old.txt") samplePaper := by decide +kernel
  obtain ⟨leaves, _⟩ := leavesFiles_of_generated [] accepted (by decide) statics
  refine ⟨?_, leaves ?_⟩ <;> decide +kernel

/-- Outside the output directory no file is changed. -/
theorem file?_generated {data : Plain} (accepted : Config.ofPlain data = .ok config)
    (wellFormed : before.tree.WellFormed) (statics : StaticsStayBelow root config target before)
    (h : generated root config isDry target log before = (result, after)) {place : Location}
    (outside : ¬ outputOf root config target <+: place)
    : after.tree.file? place = before.tree.file? place := by
  have accepted := Config.isSuffix_of_ofPlain accepted
  cases targetRun_of_generated h with
  | unplanned failure => rfl
  | dry planned => rfl
  | written planned wrote =>
      rw [← absolute_outputOf] at wrote
      exact file?_of_writeOutput wellFormed named_outputOf
        (planned.staysBelow wellFormed accepted statics) wrote outside
  | unwritten planned failed =>
      rw [← absolute_outputOf] at failed
      obtain ⟨_, adds⟩ := addsFolders_of_writeOutput wellFormed named_outputOf
        (planned.staysBelow wellFormed accepted statics) failed
      exact adds.file?_eq place

/-- A file of the sample is copied, and stays where it is. -/
theorem file?_generated_notes
    : (generated "/" (sampleConfig "notes.txt") false (sampleTarget "notes.txt") []
        samplePaper).2.tree.file? ["paper", "notes.txt"]
      = samplePaper.tree.file? ["paper", "notes.txt"] := by
  have accepted : Config.ofPlain (sampleData "notes.txt") = .ok (sampleConfig "notes.txt") := rfl
  have statics : StaticsStayBelow "/" (sampleConfig "notes.txt") (sampleTarget "notes.txt")
      samplePaper := by decide +kernel
  have outside : ¬ outputOf "/" (sampleConfig "notes.txt") (sampleTarget "notes.txt")
      <+: ["paper", "notes.txt"] := by decide +kernel
  exact file?_generated accepted (by decide) statics (Prod.eta _).symm outside

end Stencil.Generate
