import Stencil.Proofs.Generate.Templates
import Stencil.Proofs.Log.LoggedRuns

/-! What is planned for a target. Planning reads the workspace and leaves it as it is.
-/

namespace Stencil.Generate

open Stencil.Files
open Stencil.Log

variable {workspace after : Workspace} {root : String} {config : Config} {target : Config.Target}

theorem loggedOutcome_isFolder {ε : Type} (path : String) (log : List Log.Entry)
    (workspace : Workspace)
    : loggedOutcome (ExceptT.lift (StateT.lift (isFolder path : StateM Workspace Bool))
        : ExceptT ε (Logged (StateM Workspace)) Bool) log workspace
      = ((.ok (match workspace.find path with
          | .ok .directory => true
          | _ => false), log), workspace) := by
  exact congrArg (fun found : Bool × Workspace => ((Except.ok found.1, log), found.2))
    (run_isFolder path workspace)

theorem readsOnly_sourceFiles (patterns : List String) (sourceDir outputDir : String)
    : ReadsOnly (sourceFiles patterns sourceDir outputDir : ExceptT Failure (StateM Workspace) _) :=
  (Glob.readsOnly_run _).adapt _

theorem readsOnly_findTemplates (naming : Config.Naming) (sourceDir outputDir : String)
    : ReadsOnly (findTemplates naming sourceDir outputDir
      : ExceptT Failure (StateM Workspace) _) :=
  (readsOnly_sourceFiles _ _ _).bind fun _ => readsOnly_pure _

theorem readsOnly_findStatics (naming : Config.Naming) (target : Config.Target)
    (sourceDir outputDir : String)
    : ReadsOnly (findStatics naming target sourceDir outputDir
      : ExceptT Failure (StateM Workspace) _) := by
  rw [findStatics]
  split
  · exact readsOnly_pure _
  · exact (readsOnly_sourceFiles _ _ _).bind fun _ => readsOnly_pure _

theorem readsOnly_readText (path : String)
    : ReadsOnly (readText path : ExceptT Files.Fault (StateM Workspace) _) := by
  rw [readText, map_eq_pure_bind]
  exact (readsOnly_read path).bind fun _ => readsOnly_pure _

theorem readsOnly_renderFile (context : Context) (sourceDir template : String)
    : ReadsOnly (renderFile config context sourceDir template
      : ExceptT TargetFailure (StateM Workspace) _) := by
  refine ((readsOnly_readText _).adapt _).bind fun text => ?_
  split
  · exact readsOnly_throw _
  · exact readsOnly_pure _

theorem readsOnly_loadRecord (file : String)
    : ReadsOnly (Data.loadRecord file : ExceptT Data.Error (StateM Workspace) _) := by
  rw [Data.loadRecord]
  split
  · exact readsOnly_throw _
  · refine (readsOnly_readText _).attempt.bind fun text => ?_
    split
    · exact readsOnly_throw _
    · split
      · exact readsOnly_throw _
      · exact readsOnly_pure _

theorem onlyNotes_loadContext (files : List String) (overrides : List Data.Override)
    : OnlyNotes (Data.loadContext files overrides
      : ExceptT Data.Error (Logged (StateM Workspace)) _) := by
  refine (onlyNotes_mapM (fun file => ?_) files).bind fun records => fun _ _ => rfl
  exact (onlyNotes_note _).bind fun _ => onlyNotes_lift (readsOnly_loadRecord file)

theorem onlyNotes_planTarget
    : OnlyNotes (planTarget root config target
      : ExceptT TargetFailure (Logged (StateM Workspace)) _) := by
  have below {α : Type} {action : ExceptT Failure (StateM Workspace) α} (h : ReadsOnly action)
      : OnlyNotes (ExceptT.mk (StateT.lift (action.adapt TargetFailure.general).run)
        : ExceptT TargetFailure (Logged (StateM Workspace)) α) :=
    onlyNotes_lift (h.adapt _)
  unfold planTarget
  refine OnlyNotes.bind (fun log workspace => ?_) fun isThere => ?_
  · rw [loggedOutcome_isFolder]
  show OnlyNotes (if _ then throw _ >>= _ else _)
  split
  · exact fun _ _ => rfl
  · refine ((onlyNotes_loadContext _ _).adapt _).bind fun context => ?_
    refine (below (readsOnly_findTemplates _ _ _)).bind fun templates => ?_
    refine (onlyNotes_mapM (fun template => onlyNotes_lift (readsOnly_renderFile _ _ _)) _).bind
      fun rendered => ?_
    refine (below (readsOnly_findStatics _ _ _ _)).bind fun copied => ?_
    split
    · exact onlyNotes_throw _
    · exact onlyNotes_pure _

/-- The data of a target: the records of its data files, merged. -/
def LoadsData (root : String) (target : Config.Target) (workspace : Workspace) (context : Context)
    : Prop :=
  ∃ records,
    List.Forall₂
      (fun file record =>
        outcome (Data.loadRecord (PathText.resolve root file)) workspace = (.ok record, workspace))
      target.data records
    ∧ Data.contextOf records [] = .ok context

theorem loadContext_eq_ok {context : Context} {log log' : List Log.Entry}
    (h : loggedOutcome (Data.loadContext (target.data.map (PathText.resolve root)) []) log workspace
      = ((.ok context, log'), after))
    : LoadsData root target workspace context := by
  have onlyNotes (file : String)
      : OnlyNotes (do
          ExceptT.lift (Log.note (Data.loadingEntry file))
          ExceptT.mk (StateT.lift (Data.loadRecord file : ExceptT _ (StateM Workspace) _).run)) :=
    (onlyNotes_note _).bind fun _ => onlyNotes_lift (readsOnly_loadRecord file)
  obtain ⟨records, log₁, middle, loaded, h⟩ := Log.bind_eq_ok h
  have each := Log.forall₂_of_mapM onlyNotes loaded
  refine ⟨records, (List.forall₂_map_left_iff.1 each).imp fun file record found => ?_, ?_⟩
  · obtain ⟨log, log', found⟩ := found
    obtain ⟨_, log₂, middle, noted, found⟩ := Log.bind_eq_ok found
    cases noted
    exact (lift_eq_ok found).2
  · exact (Prod.mk.inj (Prod.mk.inj h).1).1

/-- What is planned for a target, in terms of what the workspace holds. -/
structure Planned (root : String) (config : Config) (target : Config.Target) (workspace : Workspace)
    (plan : Plan) : Prop where
  sourceDir : plan.sourceDir = target.sourceDir root
  folder : workspace.find plan.sourceDir = .ok .directory
  rendered : ∃ context templates,
    LoadsData root target workspace context
    ∧ outcome (findTemplates config.naming plan.sourceDir (target.outputDir root config.naming))
        workspace
      = (.ok templates, workspace)
    ∧ List.Forall₂
        (fun template rendered =>
          outcome (renderFile config context plan.sourceDir template) workspace
          = (.ok rendered, workspace))
        templates plan.rendered
  copied : outcome (findStatics config.naming target plan.sourceDir
      (target.outputDir root config.naming)) workspace
    = (.ok plan.copied, workspace)
  apart : ∀ file ∈ plan.copied, ∀ rendered ∈ plan.rendered, rendered.output ≠ file

theorem planned_of_planTarget {plan : Plan} {log log' : List Log.Entry}
    (h : loggedOutcome (planTarget root config target) log workspace = ((.ok plan, log'), after))
    : Planned root config target workspace plan := by
  unfold planTarget at h
  -- No stage changes the workspace, so each is seen to run in the first one.
  obtain ⟨isThere, log₁, middle, looked, h⟩ := Log.bind_eq_ok h
  rw [loggedOutcome_isFolder] at looked
  obtain ⟨⟨there, rfl⟩, rfl⟩ : (_ = isThere ∧ log = log₁) ∧ workspace = middle := by
    simpa using looked
  replace h : loggedOutcome (if (!isThere) = true then throw _ >>= _ else _) log workspace = _ := h
  cases isThere with
  | false => cases h
  | true =>
  have folder : workspace.find (target.sourceDir root) = .ok .directory := by
    split at there
    · assumption
    · cases there
  obtain ⟨context, log₂, middle, loaded, h⟩ := Log.bind_eq_ok h
  have loaded := Log.adapt_eq_ok loaded
  cases (onlyNotes_loadContext _ _).eq loaded
  obtain ⟨templates, log₃, middle, searched, h⟩ := Log.bind_eq_ok h
  have found := Files.adapt_eq_ok.1 (lift_eq_ok searched).2
  cases (readsOnly_findTemplates _ _ _).eq found
  obtain ⟨rendered, log₄, middle, each, h⟩ := Log.bind_eq_ok h
  have onlyNotes (template : String)
      : OnlyNotes (ExceptT.mk (StateT.lift
          (renderFile config context (target.sourceDir root) template
            : ExceptT TargetFailure (StateM Workspace) _).run)) :=
    onlyNotes_lift (readsOnly_renderFile _ _ _)
  cases (onlyNotes_mapM onlyNotes _).eq each
  have each := Log.forall₂_of_mapM onlyNotes each
  obtain ⟨copied, log₅, middle, searched', h⟩ := Log.bind_eq_ok h
  have matched := Files.adapt_eq_ok.1 (lift_eq_ok searched').2
  cases (readsOnly_findStatics _ _ _ _).eq matched
  split at h
  · cases h
  · rename_i apart
    cases h
    refine ⟨rfl, folder, ⟨context, templates, loadContext_eq_ok loaded, found, ?_⟩, matched, ?_⟩
    · exact each.imp fun template rendered ⟨_, _, found⟩ => (lift_eq_ok found).2
    · intro file member rendered member' same
      have none := List.find?_eq_none.1 apart file member
      simp only [List.any_eq_true, beq_iff_eq, not_exists, not_and] at none
      exact none rendered member' same

end Stencil.Generate
