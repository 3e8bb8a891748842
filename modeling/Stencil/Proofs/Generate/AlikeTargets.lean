import Stencil.Proofs.Files.Glob.AlikeSearches
import Stencil.Proofs.Files.Glob.PlannedGroups
import Stencil.Proofs.Generate.AlikeWritings

/-! Planning a target in two workspaces. Where the directories that the target works in have the same
content, and all other places that it looks at have the same files at and above them, its plan is the
same.
-/

namespace Stencil.Generate

open Stencil.Files
open Stencil.Log
open Stencil.Config (isSuffix Naming)
open Stencil.Files.Glob (SameWays staysInside staysInside_eq_true readsAlike_run
  planOf_templatePattern)

variable {first second workspace : Workspace} {root : String} {config : Config}
  {target : Config.Target} {naming : Naming} {source : Location}

-----------------------------------------------------------------------------------------
-- What a target looks at
-----------------------------------------------------------------------------------------

/-- The plan of the search for the files that a target copies. -/
def IsStaticPlan (root : String) (config : Config) (target : Config.Target) (plan : Glob.Plan)
    : Prop :=
  Glob.planOf (sourceQuery target.statics (target.sourceDir root)
    (target.outputDir root config.naming)) = .ok plan

/-- The places at and above which a target looks for files: the directories that it works in, its
data files, and what its patterns for files to copy spell or are searched from.
-/
inductive IsWatched (root : String) (config : Config) (target : Config.Target) : Location → Prop
  | workplace {place : Location}
    (h : IsWorkplace (sourceOf root target) (outputOf root config target) place)
    : IsWatched root config target place
  | data {file : String} (member : file ∈ target.data)
    : IsWatched root config target (PathText.locate [] (PathText.resolve root file))
  | spelled {plan : Glob.Plan} {group : Glob.Group} {text : List Char}
    (planned : IsStaticPlan root config target plan) (member : group ∈ plan.lookups)
    (isText : text ∈ group.texts)
    : IsWatched root config target
        (PathText.locate (sourceOf root target) (String.ofList text))
  | searched {plan : Glob.Plan} {group : Glob.Group}
    (planned : IsStaticPlan root config target plan) (member : group ∈ plan.searches)
    : IsWatched root config target
        (PathText.locate (sourceOf root target) (String.ofList group.base))

/-- Two workspaces are the same for a target: what it works in has the same content, and the same
files stand at and above all that it looks at.
-/
structure SameFor (root : String) (config : Config) (target : Config.Target)
    (first second : Workspace) : Prop where
  directory : second.directory = first.directory
  listed (place : Location) :
    IsWorkplace (sourceOf root target) (outputOf root config target) place →
    second.tree.listed place = first.tree.listed place
  files (place : Location) : IsWatched root config target place →
    SameFilesTo first.tree second.tree place

theorem SameFor.refl (workspace : Workspace) : SameFor root config target workspace workspace :=
  ⟨rfl, fun _ _ => rfl, fun _ _ _ _ => rfl⟩

theorem SameFor.symm (h : SameFor root config target first second)
    : SameFor root config target second first :=
  ⟨h.directory.symm, fun place isWorkplace => (h.listed place isWorkplace).symm,
    fun place isWatched other isAbove => (h.files place isWatched other isAbove).symm⟩

theorem SameFor.trans {third : Workspace} (h : SameFor root config target first second)
    (h' : SameFor root config target second third)
    : SameFor root config target first third :=
  ⟨h'.directory.trans h.directory,
    fun place isWorkplace => (h'.listed place isWorkplace).trans (h.listed place isWorkplace),
    fun place isWatched other isAbove =>
      (h'.files place isWatched other isAbove).trans (h.files place isWatched other isAbove)⟩

theorem SameFor.alike (same : SameFor root config target first second)
    (wellFormed : first.tree.WellFormed) (wellFormed' : second.tree.WellFormed)
    : Alike (InWorkplace (sourceOf root target) (outputOf root config target)) first second := by
  have entries {workplace place : Location}
      (isWorkplace : IsWorkplace (sourceOf root target) (outputOf root config target) workplace)
      (inside : workplace <+: place)
      : second.tree.entry? place = first.tree.entry? place := by
    obtain ⟨names, rfl⟩ := inside
    exact FileTree.entry?_of_listed_eq (same.listed _ isWorkplace) names
  refine ⟨same.directory, wellFormed, wellFormed', ?_, ?_⟩
  · rintro place ⟨workplace, isWorkplace, inside⟩
    exact entries isWorkplace inside
  · rintro place names ⟨workplace, isWorkplace, inside⟩
    rcases List.prefix_or_prefix_of_prefix (List.prefix_append place names) inside
      with isAbove | inside
    · exact same.files workplace (.workplace isWorkplace) place isAbove
    · exact FileTree.file?_congr (entries isWorkplace inside)

-----------------------------------------------------------------------------------------
-- Searches
-----------------------------------------------------------------------------------------

/-- No path of a file that a target would copy is absolute or goes up. -/
def StaticsInside (root : String) (config : Config) (target : Config.Target)
    (workspace : Workspace)
    : Prop :=
  ∀ files ∈ (outcome (findStatics config.naming target (target.sourceDir root)
      (target.outputDir root config.naming)) workspace).1.toOption,
    ∀ file ∈ files, PathText.isAbsolute file = false ∧ ".." ∉ PathText.segments file

instance (root : String) (config : Config) (target : Config.Target) (workspace : Workspace)
    : Decidable (StaticsInside root config target workspace) :=
  inferInstanceAs (Decidable (∀ files ∈ Except.toOption _, ∀ file ∈ files, _ ∧ _))

theorem StaticsInside.stayBelow (h : StaticsInside root config target workspace)
    : StaticsStayBelow root config target workspace :=
  fun files found file member => (h files found file member).2

theorem isAbsolute_join {names : Location} (named : names.Named)
    : PathText.isAbsolute (PathText.join names) = false := by
  rw [PathText.isAbsolute, PathText.toList_join, beq_eq_false_iff_ne]
  intro slash
  obtain ⟨rest, eq⟩ := List.head?_eq_some_iff.1 slash
  exact (Glob.not_prefix_joined named).1 ⟨rest, eq.symm⟩

/-- Paths that are found in a source directory and are not absolute and do not go up stay inside. -/
theorem staysInside_of_sourceFiles {patterns files : List String} {output file : String}
    {after : Workspace} (wellFormed : workspace.tree.WellFormed) (named : source.Named)
    (h : outcome (sourceFiles patterns (PathText.absolute source) output) workspace
      = (.ok files, after))
    (member : file ∈ files) (isRelative : PathText.isAbsolute file = false)
    (stays : ".." ∉ PathText.segments file)
    : staysInside file.toList = true := by
  obtain ⟨plan, planned, _, found⟩ := sourceFiles_eq_ok named h
  exact staysInside_eq_true ((found file member).isSingle wellFormed planned)
    (by rwa [String.ofList_toList]) (by rwa [String.ofList_toList])

/-- Lists with the same paths that stay inside have the same kept paths if these all do. -/
theorem filter_eq_of_inside {files files' : List String} {inside keep : String → Bool}
    (same : files'.filter inside = files.filter inside)
    (all : ∀ file ∈ files, keep file = true → inside file = true)
    (all' : ∀ file ∈ files', keep file = true → inside file = true)
    : files'.filter keep = files.filter keep := by
  have within {files : List String}
      (all : ∀ file ∈ files, keep file = true → inside file = true)
      : files.filter keep = (files.filter inside).filter keep := by
    rw [List.filter_filter]
    refine List.filter_congr fun file member => ?_
    by_cases kept : keep file = true
    · simp [kept, all file member kept]
    · simp [kept]
  rw [within all, within all', same]

section

variable (wellFormed : first.tree.WellFormed) (wellFormed' : second.tree.WellFormed)

include wellFormed wellFormed'

/-- Of what a search of a source directory finds the same is kept, where all of that stays inside.
-/
theorem sourceFiles_same {patterns : List String} {output : String} {keep : String → Bool}
    (named : source.Named) (listed : second.tree.listed source = first.tree.listed source)
    (ways : SameWays (sourceQuery patterns (PathText.absolute source) output) source first second)
    (inside : ∀ files, outcome (sourceFiles patterns (PathText.absolute source) output) first
      = (.ok files, first) → ∀ file ∈ files, keep file = true → staysInside file.toList = true)
    (inside' : ∀ files, outcome (sourceFiles patterns (PathText.absolute source) output) second
      = (.ok files, second) → ∀ file ∈ files, keep file = true → staysInside file.toList = true)
    : let find : ExceptT Failure (StateM Workspace) (List String) := do
        let files ← sourceFiles patterns (PathText.absolute source) output
        return Text.sortByUnits (files.filter keep)
      (outcome find second).1 = (outcome find first).1 := by
  intro find
  have searched := readsAlike_run wellFormed wellFormed' named rfl rfl listed ways
  obtain ⟨result, result', ran, ran', related⟩ := searched.adapt Failure.glob
  have ran : outcome (sourceFiles patterns (PathText.absolute source) output) first
      = (result, first) := ran
  have ran' : outcome (sourceFiles patterns (PathText.absolute source) output) second
      = (result', second) := ran'
  simp only [find, outcome_bind, ran, ran']
  cases related with
  | error cause => rfl
  | ok same =>
      simp only [outcome_pure, filter_eq_of_inside same (inside _ ran) (inside' _ ran')]

theorem findTemplates_same {output : String} (named : source.Named)
    (listed : second.tree.listed source = first.tree.listed source)
    (files : SameFilesTo first.tree second.tree source)
    (folder : first.tree.entry? source = some .directory) (accepted : isSuffix naming.suffix = true)
    : (outcome (findTemplates naming (PathText.absolute source) output) second).1
      = (outcome (findTemplates naming (PathText.absolute source) output) first).1 := by
  have folder' : second.tree.entry? source = some .directory := by
    have same := FileTree.entry?_of_listed_eq listed []
    rwa [List.append_nil, folder] at same
  have here : PathText.locate source (String.ofList ['.']) = source := by
    rw [PathText.locate_of_relative named (by decide) (by decide)]
    exact List.append_nil _
  obtain ⟨word, isWord, pattern⟩ := exists_word accepted
  have inside {workspace : Workspace} (wellFormed : workspace.tree.WellFormed)
      (folder : workspace.tree.entry? source = some .directory) (files : List String)
      (h : outcome (sourceFiles [naming.pattern] (PathText.absolute source) output) workspace
        = (.ok files, workspace)) (file : String) (member : file ∈ files)
      (isTemplate : naming.isTemplate file = true)
      : staysInside file.toList = true := by
    have found : outcome (findTemplates naming (PathText.absolute source) output) workspace
        = (.ok (Text.sortByUnits (files.filter naming.isTemplate)), workspace) := by
      rw [findTemplates, outcome_bind, h]
      rfl
    obtain ⟨_, shown⟩ := findTemplates_eq_ok wellFormed named folder accepted found
    obtain ⟨_, names, _, isShown, _⟩ := shown file
      (List.mem_mergeSort.2 (List.mem_filter.2 ⟨member, isTemplate⟩))
    refine staysInside_of_sourceFiles wellFormed named h member ?_ isShown.stays
    rw [isShown.eq, isAbsolute_join isShown.named]
  refine sourceFiles_same wellFormed wellFormed' named listed ⟨?_, ?_⟩
    (inside wellFormed folder) (inside wellFormed' folder')
  · intro plan planned group member
    rw [sourceQuery, pattern] at planned
    rw [(planOf_templatePattern isWord planned).1] at member
    exact absurd member List.not_mem_nil
  · intro plan planned group member
    rw [sourceQuery, pattern] at planned
    rw [(planOf_templatePattern isWord planned).2, List.mem_singleton] at member
    rwa [member, here]

theorem findStatics_same (same : SameFor root config target first second)
    (inside : StaticsInside root config target first)
    (inside' : StaticsInside root config target second)
    : (outcome (findStatics config.naming target (target.sourceDir root)
        (target.outputDir root config.naming)) second).1
      = (outcome (findStatics config.naming target (target.sourceDir root)
        (target.outputDir root config.naming)) first).1 := by
  have kept {workspace : Workspace} (wellFormed : workspace.tree.WellFormed)
      (inside : StaticsInside root config target workspace) (notEmpty : ¬ target.statics.isEmpty)
      (files : List String)
      (h : outcome (sourceFiles target.statics (PathText.absolute (sourceOf root target))
          (target.outputDir root config.naming)) workspace
        = (.ok files, workspace)) (file : String) (member : file ∈ files)
      (isStatic : (!config.naming.isTemplate file) = true)
      : staysInside file.toList = true := by
    have found : outcome (findStatics config.naming target (target.sourceDir root)
          (target.outputDir root config.naming)) workspace
        = (.ok (Text.sortByUnits (files.filter fun file => !config.naming.isTemplate file)),
          workspace) := by
      rw [findStatics, if_neg notEmpty, ← absolute_sourceOf, outcome_bind, h]
      rfl
    have isFound : Text.sortByUnits (files.filter fun file => !config.naming.isTemplate file)
        ∈ (outcome (findStatics config.naming target (target.sourceDir root)
          (target.outputDir root config.naming)) workspace).1.toOption := by
      rw [found]
      exact Option.mem_some_self _
    obtain ⟨isRelative, stays⟩ := inside _ isFound file
      (List.mem_mergeSort.2 (List.mem_filter.2 ⟨member, isStatic⟩))
    exact staysInside_of_sourceFiles wellFormed named_sourceOf h member isRelative stays
  by_cases isEmpty : target.statics.isEmpty
  · rw [findStatics, if_pos isEmpty]
    rfl
  · rw [findStatics, if_neg isEmpty, ← absolute_sourceOf]
    refine sourceFiles_same wellFormed wellFormed' named_sourceOf
      (same.listed _ .source) ⟨?_, ?_⟩ (kept wellFormed inside isEmpty)
      (kept wellFormed' inside' isEmpty)
    · intro plan planned group member text isText
      rw [absolute_sourceOf] at planned
      exact same.files _ (.spelled planned member isText)
    · intro plan planned group member
      rw [absolute_sourceOf] at planned
      exact same.files _ (.searched planned member)

end

-----------------------------------------------------------------------------------------
-- Plans
-----------------------------------------------------------------------------------------

/-- The record of a data file depends on the file. -/
theorem loadRecord_same {location : Location} (named : location.Named)
    (same : second.tree.file? location = first.tree.file? location)
    : (outcome (Data.loadRecord (PathText.absolute location)) second).1
      = (outcome (Data.loadRecord (PathText.absolute location)) first).1 := by
  refine ReadsAlike.same ?_
  rw [Data.loadRecord]
  split
  · exact readsAlike_throw _
  · refine (readsAlike_attempt_readText named same).bind fun result result' same => ?_
    cases result with
    | error fault =>
        cases result' with
        | error fault' => exact readsAlike_throw _
        | ok text => cases same
    | ok text =>
        cases result' with
        | error fault' => cases same
        | ok text' =>
            cases same
            simp only
            split
            · exact readsAlike_throw _
            · exact readsAlike_pure rfl

/-- The data of a target is the same. -/
theorem yieldsAlike_loadContext (same : SameFor root config target first second)
    : YieldsAlike first second
        (Data.loadContext (target.data.map (PathText.resolve root)) []
          : ExceptT Data.Error (Logged (StateM Workspace)) Context) := by
  refine (YieldsAlike.mapM fun file member => ?_).bind fun records _ => yieldsAlike_pure _
  obtain ⟨given, isData, rfl⟩ := List.mem_map.1 member
  refine (yieldsAlike_note _).bind fun _ _ => yieldsAlike_lift (readsOnly_loadRecord _) ?_
  rw [← absolute_locate_resolve]
  exact loadRecord_same (PathText.named_locate PathText.named_nil _)
    (same.files _ (.data isData) _ List.prefix_rfl)

/-- A template is rendered in the same way. -/
theorem renderFile_same {output : Location} {context : Context} {template : String}
    (alike : Alike (InWorkplace source output) first second) (named : source.Named)
    (stays : ".." ∉ PathText.segments template)
    : (outcome (renderFile config context (PathText.absolute source) template) second).1
      = (outcome (renderFile config context (PathText.absolute source) template) first).1 := by
  have spells := PathText.spells_append named stays
  have inside : InWorkplace source output (source ++ PathText.place template) :=
    IsWorkplace.source.inside _
  have text : RunsAlike (InWorkplace source output)
      (readText (PathText.append (PathText.absolute source) template)) := by
    rw [readText, map_eq_pure_bind]
    exact (runsAlike_read spells inside).bind fun _ => runsAlike_pure _
  refine (RunsAlike.bind (text.adapt _) (fun text => ?_) first second alike).1
  split
  · exact runsAlike_throw _
  · exact runsAlike_pure _

/-- A target is planned in the same way where the stages of that come to the same. -/
theorem yieldsAlike_planTarget
    (found : second.find (target.sourceDir root) = first.find (target.sourceDir root))
    (loads : YieldsAlike first second
      (Data.loadContext (target.data.map (PathText.resolve root)) []
        : ExceptT Data.Error (Logged (StateM Workspace)) Context))
    (searches : first.find (target.sourceDir root) = .ok .directory →
      (outcome (findTemplates config.naming (target.sourceDir root)
        (target.outputDir root config.naming)) second).1
      = (outcome (findTemplates config.naming (target.sourceDir root)
        (target.outputDir root config.naming)) first).1)
    (renders : first.find (target.sourceDir root) = .ok .directory → ∀ context templates,
      outcome (findTemplates config.naming (target.sourceDir root)
        (target.outputDir root config.naming)) first = (.ok templates, first) →
      ∀ template ∈ templates,
        (outcome (renderFile config context (target.sourceDir root) template) second).1
        = (outcome (renderFile config context (target.sourceDir root) template) first).1)
    (copies : (outcome (findStatics config.naming target (target.sourceDir root)
        (target.outputDir root config.naming)) second).1
      = (outcome (findStatics config.naming target (target.sourceDir root)
        (target.outputDir root config.naming)) first).1)
    : YieldsAlike first second
        (planTarget root config target
          : ExceptT TargetFailure (Logged (StateM Workspace)) Plan) := by
  have below {α : Type} {action : ExceptT Failure (StateM Workspace) α} (h : ReadsOnly action)
      (same : (outcome action second).1 = (outcome action first).1)
      : YieldsAlike first second
          (ExceptT.mk (StateT.lift (action.adapt TargetFailure.general).run)
            : ExceptT TargetFailure (Logged (StateM Workspace)) α) :=
    yieldsAlike_lift (h.adapt _) (by rw [outcome_adapt, outcome_adapt, same])
  unfold planTarget
  refine YieldsAlike.bind ⟨_, fun log => ⟨log, loggedOutcome_isFolder _ log first⟩,
    fun log => ⟨log, found ▸ loggedOutcome_isFolder _ log second⟩⟩ fun isThere looked => ?_
  show YieldsAlike first second (if _ then throw _ >>= _ else _)
  cases isThere with
  | false => exact yieldsAlike_pure (.error _)
  | true =>
  have folder : first.find (target.sourceDir root) = .ok .directory := by
    obtain ⟨log, ran⟩ := looked []
    rw [loggedOutcome_isFolder] at ran
    obtain ⟨there, _⟩ : _ = true ∧ [] = log := by simpa using ran
    split at there
    · assumption
    · cases there
  refine (loads.adapt _).bind fun context _ => ?_
  refine (below (readsOnly_findTemplates _ _ _) (searches folder)).bind fun templates searched => ?_
  refine (YieldsAlike.mapM fun template member =>
    yieldsAlike_lift (readsOnly_renderFile _ _ _) ?_).bind fun rendered _ => ?_
  · obtain ⟨_, ran⟩ := searched []
    exact renders folder context templates (Files.adapt_eq_ok.1 (lift_eq_ok ran).2) template member
  refine (below (readsOnly_findStatics _ _ _ _) copies).bind fun copied _ => ?_
  split
  · exact yieldsAlike_pure (.error _)
  · exact yieldsAlike_pure (.ok _)

/-- The log does not tell what is planned. -/
theorem yieldsAlike_planTarget_self
    : YieldsAlike workspace workspace
        (planTarget root config target
          : ExceptT TargetFailure (Logged (StateM Workspace)) Plan) := by
  refine yieldsAlike_planTarget rfl ?_ (fun _ => rfl) (fun _ _ _ _ _ _ => rfl) rfl
  refine (YieldsAlike.mapM fun file _ => ?_).bind fun records _ => yieldsAlike_pure _
  exact (yieldsAlike_note _).bind fun _ _ => yieldsAlike_lift (readsOnly_loadRecord _) rfl

/-- What is planned for a target is the same in two workspaces that are the same for it. -/
theorem SameFor.yieldsAlike_planTarget (same : SameFor root config target first second)
    (wellFormed : first.tree.WellFormed) (wellFormed' : second.tree.WellFormed)
    (accepted : isSuffix config.naming.suffix = true)
    (inside : StaticsInside root config target first)
    (inside' : StaticsInside root config target second)
    : YieldsAlike first second
        (planTarget root config target
          : ExceptT TargetFailure (Logged (StateM Workspace)) Plan) := by
  have alike := same.alike wellFormed wellFormed'
  have named : (sourceOf root target).Named := named_sourceOf
  have spells := PathText.spells_absolute named
  rw [absolute_sourceOf] at spells
  have stands (folder : first.find (target.sourceDir root) = .ok .directory)
      : first.tree.entry? (sourceOf root target) = some .directory :=
    (Workspace.find_eq_directory_iff spells).1 folder
  refine Generate.yieldsAlike_planTarget (alike.find_eq spells ⟨_, .source, List.prefix_rfl⟩)
    (yieldsAlike_loadContext same) (fun folder => ?_)
    (fun folder context templates found template member => ?_)
    (findStatics_same wellFormed wellFormed' same inside inside')
  · rw [← absolute_sourceOf]
    exact findTemplates_same wellFormed wellFormed' named (same.listed _ .source)
      (same.files _ (.workplace .source)) (stands folder) accepted
  · rw [← absolute_sourceOf] at found ⊢
    obtain ⟨_, shown⟩ := findTemplates_eq_ok wellFormed named (stands folder) accepted found
    obtain ⟨_, _, _, isShown, _⟩ := shown template member
    exact renderFile_same alike named isShown.stays

end Stencil.Generate
