import Mathlib.Data.List.Perm.Subperm
import Stencil.Proofs.Config.NormalForms
import Stencil.Proofs.Generate.AlikeTargets
import Stencil.Proofs.Generate.Frames

/-! Generating several targets. Targets that are independent do not disturb one another: each gets
the result that it gets on its own, but for the names of new directories in the messages of failures,
and what they leave is the same, whatever their order and whatever names are drawn.
-/

namespace Stencil.Generate

open Stencil.Files
open Stencil.Log (loggedOutcome)

variable {before after : Workspace} {root : String} {config : Config} {isDry : Bool}
  {target other : Config.Target}

-----------------------------------------------------------------------------------------
-- One target after another
-----------------------------------------------------------------------------------------

/-- Generating another target leaves alone what a target reads and writes. Its output directory is
apart from the directories of the target, does not hold its data files and is not where its patterns
for files to copy lead to or are searched.
-/
structure SparedBy (root : String) (config : Config) (other target : Config.Target) : Prop where
  source : Apart (outputOf root config other) (sourceOf root target)
  output : Apart (outputOf root config other) (outputOf root config target)
  data : ∀ file ∈ target.data,
    ¬ outputOf root config other <+: PathText.locate [] (PathText.resolve root file)
  lookups : ∀ plan, IsStaticPlan root config target plan →
    ∀ group ∈ plan.lookups, ∀ text ∈ group.texts,
      ¬ outputOf root config other
        <+: PathText.locate (sourceOf root target) (String.ofList text)
  searches : ∀ plan, IsStaticPlan root config target plan → ∀ group ∈ plan.searches,
    ¬ outputOf root config other
      <+: PathText.locate (sourceOf root target) (String.ofList group.base)

/-- Two targets leave each other alone. -/
def Independent (root : String) (config : Config) (first second : Config.Target) : Prop :=
  SparedBy root config first second ∧ SparedBy root config second first

theorem SparedBy.apart (spared : SparedBy root config other target) {place : Location}
    (h : IsWorkplace (sourceOf root target) (outputOf root config target) place)
    : Apart (outputOf root config other) place := by
  cases h with
  | source => exact spared.source
  | output => exact spared.output

theorem SparedBy.not_prefix (spared : SparedBy root config other target) {place : Location}
    (h : IsWatched root config target place)
    : ¬ outputOf root config other <+: place := by
  cases h with
  | workplace isWorkplace => exact (spared.apart isWorkplace).notAbove
  | data member => exact spared.data _ member
  | spelled planned member isText => exact spared.lookups _ planned _ member _ isText
  | searched planned member => exact spared.searches _ planned _ member

/-- A workspace is the same for a target after another one has been generated. -/
theorem sameFor_of_generated {data : Plain} {log : List Log.Entry} {result : Result}
    (accepted : Config.ofPlain data = .ok config) (wellFormed : before.tree.WellFormed)
    (inside : StaticsInside root config other before) (spared : SparedBy root config other target)
    (h : generated root config isDry other log before = (result, after))
    : SameFor root config target before after := by
  have framed := framed_of_generated (Config.isSuffix_of_ofPlain accepted) wellFormed
    inside.stayBelow h
  refine ⟨framed.directory, fun place isWorkplace => framed.listed place (spared.apart isWorkplace),
    fun place isWatched above isAbove => ?_⟩
  exact file?_generated accepted wellFormed inside.stayBelow h fun isBelow =>
    spared.not_prefix isWatched (isBelow.trans isAbove)

/-- Two results that are the same, but for the name of a new directory in the message of a failure,
which each run has drawn from its own lottery.
-/
structure SameResult (lottery lottery' : Lottery) (result result' : Result) : Prop where
  same : { result' with error? := none } = { result with error? := none }
  message : ∃ name name',
    IsDrawn lottery name
    ∧ IsDrawn lottery' name'
    ∧ Option.Rel (SameBut name name') result.error? result'.error?

theorem SameResult.target_eq {lottery lottery' : Lottery} {result result' : Result}
    (h : SameResult lottery lottery' result result')
    : result'.target = result.target :=
  (congrArg Result.target h.same :)

theorem SameResult.of_within {lottery lottery' later later' : Lottery} {result result' : Result}
    (h : SameResult later later' result result') (within : later.Within lottery)
    (within' : later'.Within lottery')
    : SameResult lottery lottery' result result' := by
  obtain ⟨name, name', drawn, drawn', sameBut⟩ := h.message
  exact ⟨h.same, name, name', drawn.of_within within, drawn'.of_within within', sameBut⟩

theorem sameResult_refl (lottery lottery' : Lottery) (result : Result)
    : SameResult lottery lottery' result result := by
  refine ⟨rfl, _, _, ⟨0, [], rfl⟩, ⟨0, [], rfl⟩, ?_⟩
  cases result.error? with
  | none => exact .none
  | some message => exact .some (.same message)

/-- What a target is to write is written in the same way where its directories are the same. -/
theorem Planned.writeOutput_same {plan : Plan} {first second : Workspace}
    (planned : Planned root config target first plan)
    (alike : Alike (InWorkplace (sourceOf root target) (outputOf root config target)) first second)
    (accepted : Config.isSuffix config.naming.suffix = true)
    (inside : StaticsInside root config target first)
    (avoids : Avoids first.lottery (outputOf root config target))
    (avoids' : Avoids second.lottery (outputOf root config target))
    : let run := outcome (writeOutput (target.outputDir root config.naming) plan) first
      let run' := outcome (writeOutput (target.outputDir root config.naming) plan) second
      (∃ name name',
        IsDrawn first.lottery name
        ∧ IsDrawn second.lottery name'
        ∧ Matched (SameFailure name name') run.1 run'.1)
      ∧ ∀ names, run'.2.tree.file? (outputOf root config target ++ names)
          = run.2.tree.file? (outputOf root config target ++ names) := by
  rw [← absolute_outputOf]
  refine Generate.writeOutput_same alike named_outputOf named_sourceOf
    (planned.staysBelow alike.wellFormed accepted inside.stayBelow) planned.sourceDir_eq
    planned.entry?_source (fun file member => ?_) avoids avoids'
  have found := planned.copied
  rw [planned.sourceDir] at found
  obtain ⟨isRelative, stays⟩ := inside plan.copied (by rw [found]; exact Option.mem_some_self _)
    file member
  obtain ⟨content, stands⟩ := planned.exists_copied alike.wellFormed member isRelative stays
  rw [FileTree.file?_eq_some_iff.1 stands]
  rfl

/-- Generating a target comes to the same where the workspace is the same for it. -/
theorem generated_same {data : Plain} {first second : Workspace} (isDry : Bool)
    (log log' : List Log.Entry) (accepted : Config.ofPlain data = .ok config)
    (wellFormed : first.tree.WellFormed) (wellFormed' : second.tree.WellFormed)
    (same : SameFor root config target first second)
    (inside : StaticsInside root config target first)
    (inside' : StaticsInside root config target second)
    (avoids : Avoids first.lottery (outputOf root config target))
    (avoids' : Avoids second.lottery (outputOf root config target))
    : let run := generated root config isDry target log first
      let run' := generated root config isDry target log' second
      SameResult first.lottery second.lottery run.1 run'.1
      ∧ ∀ names, run'.2.tree.file? (outputOf root config target ++ names)
          = run.2.tree.file? (outputOf root config target ++ names) := by
  have accepted := Config.isSuffix_of_ofPlain accepted
  have alike := same.alike wellFormed wellFormed'
  have files (names : Location)
      : second.tree.file? (outputOf root config target ++ names)
        = first.tree.file? (outputOf root config target ++ names) :=
    FileTree.file?_congr (alike.agree.entry? _ (IsWorkplace.output.inside names))
  obtain ⟨result, yields, yields'⟩ :=
    same.yieldsAlike_planTarget wellFormed wellFormed' accepted inside inside'
  obtain ⟨_, found⟩ := yields log
  obtain ⟨_, found'⟩ := yields' log'
  simp only [generated_eq, found, found']
  cases result with
  | error failure => exact ⟨sameResult_refl _ _ _, files⟩
  | ok plan =>
  cases isDry with
  | true => exact ⟨sameResult_refl _ _ _, files⟩
  | false =>
      have planned := planned_of_planTarget found
      obtain ⟨⟨name, name', drawn, drawn', matched⟩, sameFiles⟩ :=
        planned.writeOutput_same alike accepted inside avoids avoids'
      rcases ran : outcome (writeOutput (target.outputDir root config.naming) plan) first
        with ⟨written, after⟩
      rcases ran' : outcome (writeOutput (target.outputDir root config.naming) plan) second
        with ⟨written', after'⟩
      rw [ran, ran'] at matched sameFiles
      simp only [Bool.false_eq_true, if_false, ran, ran']
      cases matched with
      | ok _ => exact ⟨sameResult_refl _ _ _, sameFiles⟩
      | error related =>
          refine ⟨⟨?_, name, name', drawn, drawn', .some related.message⟩, sameFiles⟩
          simp only [resultOf, TargetFailure.general, related.code]

/-- The log does not tell what becomes of a target. -/
theorem generated_log (log log' : List Log.Entry) (workspace : Workspace)
    : generated root config isDry target log' workspace
      = generated root config isDry target log workspace := by
  have planned : Log.YieldsAlike workspace workspace (planTarget root config target
      : ExceptT TargetFailure (Log.Logged (StateM Workspace)) Plan) :=
    yieldsAlike_planTarget_self
  obtain ⟨result, yields, yields'⟩ := planned
  obtain ⟨_, found⟩ := yields log
  obtain ⟨_, found'⟩ := yields' log'
  rw [generated_eq, generated_eq, found, found']

-----------------------------------------------------------------------------------------
-- All targets, one after the other
-----------------------------------------------------------------------------------------

/-- Generates targets one after the other, which comes to their results and the workspace after them.
-/
def generatedEach (root : String) (config : Config) (isDry : Bool)
    : List Config.Target → Workspace → List Result × Workspace
  | [], workspace => ([], workspace)
  | target :: targets, workspace =>
    let first := generated root config isDry target [] workspace
    let later := generatedEach root config isDry targets first.2
    (first.1 :: later.1, later.2)

/-- What generating named targets comes to, and the workspace after it. -/
def generatedAll (root : String) (config : Config) (names : List String) (isDry : Bool)
    (workspace : Workspace)
    : Except Config.Error Summary × Workspace :=
  let ((result, _), after) := Id.run
    (((generateAll root config names isDry
      : ExceptT Config.Error (Log.Logged (StateM Workspace)) Summary).run.run []).run workspace)
  (result, after)

/-- A target is generated and its failure noted. -/
def generateNoted (root : String) (config : Config) (isDry : Bool) (target : Config.Target)
    : Log.Logged (StateM Workspace) Result := do
  let result ← (generateTarget root config isDry target : Log.Logged (StateM Workspace) Result)
  if !result.success then Log.note (failedEntry result)
  return result

/-- What comes of an action that cannot fail, with the log and the workspace after it. -/
def ran {α : Type} (action : Log.Logged (StateM Workspace) α) (log : List Log.Entry)
    (workspace : Workspace)
    : (α × List Log.Entry) × Workspace :=
  Id.run ((action.run log).run workspace)

theorem ran_bind {α β : Type} {action : Log.Logged (StateM Workspace) α}
    {next : α → Log.Logged (StateM Workspace) β} {log log' : List Log.Entry} {value : α}
    (h : ran action log before = ((value, log'), after))
    : ran (action >>= next) log before = ran (next value) log' after := by
  change ran (next (ran action log before).1.1) (ran action log before).1.2
    (ran action log before).2 = _
  rw [h]

theorem ran_generateNoted (root : String) (config : Config) (isDry : Bool)
    (target : Config.Target) (log : List Log.Entry) (workspace : Workspace)
    : ∃ log', ran (generateNoted root config isDry target) log workspace
        = (((generated root config isDry target [] workspace).1, log'),
          (generated root config isDry target [] workspace).2) := by
  rw [generated_log log]
  rcases made : ran (generateTarget root config isDry target
      : Log.Logged (StateM Workspace) Result) log workspace
    with ⟨⟨result, log'⟩, after⟩
  have eq : generated root config isDry target log workspace = (result, after) := by
    rw [generated, show Id.run _ = _ from made]
  rw [eq, generateNoted, ran_bind made]
  obtain ⟨_, success, _⟩ := result
  cases success
  · exact ⟨_, rfl⟩
  · exact ⟨_, rfl⟩

/-- Targets are generated one after the other, by induction on them. The log that a target finds
tells of those before it.
-/
theorem ran_mapM_generateNoted (root : String) (config : Config) (isDry : Bool)
    (targets : List Config.Target) (log : List Log.Entry) (workspace : Workspace)
    : ∃ log', ran (targets.mapM (generateNoted root config isDry)) log workspace
        = (((generatedEach root config isDry targets workspace).1, log'),
          (generatedEach root config isDry targets workspace).2) := by
  induction targets generalizing log workspace with
  | nil => exact ⟨log, rfl⟩
  | cons target targets ih =>
      obtain ⟨log₁, first⟩ := ran_generateNoted root config isDry target log workspace
      obtain ⟨log₂, later⟩ := ih log₁ (generated root config isDry target [] workspace).2
      rw [List.mapM_cons, ran_bind first, ran_bind later]
      exact ⟨log₂, rfl⟩

/-- The targets that names select are generated one after the other. -/
theorem generatedAll_eq {names : List String} {targets : List Config.Target}
    (selected : config.select names = .ok targets) (workspace : Workspace)
    : generatedAll root config names isDry workspace
      = (.ok (.ofResults (generatedEach root config isDry targets workspace).1),
        (generatedEach root config isDry targets workspace).2) := by
  obtain ⟨log, each⟩ := ran_mapM_generateNoted root config isDry targets [] workspace
  have whole : ran (generateAll root config names isDry
      : ExceptT Config.Error (Log.Logged (StateM Workspace)) Summary).run [] workspace
      = ran (do
          let results ← targets.mapM (generateNoted root config isDry)
          return .ok (.ofResults results)) [] workspace := by
    rw [generateAll, selected]
    rfl
  rw [ran_bind each] at whole
  rw [generatedAll, show Id.run _ = _ from whole]
  rfl

theorem generatedAll_of_unknown {names : List String} {cause : Config.Error}
    (refused : config.select names = .error cause) (workspace : Workspace)
    : generatedAll root config names isDry workspace = (.error cause, workspace) := by
  rw [generatedAll, generateAll, refused]
  rfl

theorem generatedEach_concat (targets : List Config.Target) (target : Config.Target)
    (workspace : Workspace)
    : let earlier := generatedEach root config isDry targets workspace
      let last := generated root config isDry target [] earlier.2
      generatedEach root config isDry (targets ++ [target]) workspace
        = (earlier.1 ++ [last.1], last.2) := by
  induction targets generalizing workspace with
  | nil => simp only [List.nil_append, generatedEach]
  | cons first targets ih =>
      simp only [List.cons_append, generatedEach, ih]

-----------------------------------------------------------------------------------------
-- Independent targets
-----------------------------------------------------------------------------------------

theorem Independent.symm {first second : Config.Target} (h : Independent root config first second)
    : Independent root config second first :=
  ⟨h.2, h.1⟩

/-- Whichever of the targets have been generated, and in whichever order, no path of a file that
another one would copy is absolute or goes up.
-/
def StayInside (root : String) (config : Config) (isDry : Bool) (targets : List Config.Target)
    (before : Workspace)
    : Prop :=
  ∀ passed target, List.Subperm (passed ++ [target]) targets →
    StaticsInside root config target (generatedEach root config isDry passed before).2

/-- A workspace that a target finds after others, which leave it alone. -/
structure Ready (root : String) (config : Config) (before : Workspace) (target : Config.Target)
    (ready : Workspace)
    : Prop where
  wellFormed : ready.tree.WellFormed
  draws : ready.lottery.Within before.lottery
  sameFor : SameFor root config target before ready
  inside : StaticsInside root config target ready

/-- A target comes to the same in two workspaces that it finds after others, whatever names are drawn
in these.
-/
theorem Ready.generated_same {data : Plain} {lottery : Lottery} {ready ready' : Workspace}
    (h : Ready root config before target ready)
    (h' : Ready root config { before with lottery } target ready')
    (accepted : Config.ofPlain data = .ok config)
    (avoids : Avoids before.lottery (outputOf root config target))
    (avoids' : Avoids lottery (outputOf root config target)) (isDry : Bool)
    : let run := generated root config isDry target [] ready
      let run' := generated root config isDry target [] ready'
      SameResult before.lottery lottery run.1 run'.1
      ∧ ∀ names, run'.2.tree.file? (outputOf root config target ++ names)
          = run.2.tree.file? (outputOf root config target ++ names) := by
  have same : SameFor root config target ready ready' := h.sameFor.symm.trans
    ⟨h'.sameFor.directory, h'.sameFor.listed, h'.sameFor.files⟩
  obtain ⟨result, files⟩ := Generate.generated_same isDry [] [] accepted h.wellFormed h'.wellFormed
    same h.inside h'.inside (avoids.of_within h.draws) (avoids'.of_within h'.draws)
  exact ⟨result.of_within h.draws h'.draws, files⟩

/-- What some targets have come to, one after the other. Each has its result in a workspace that is
the same for it, its output directory holds the files that it holds after the target there, and all
other files are as before. For other targets, which they leave alone, the workspace is the same.
-/
structure Serial (root : String) (config : Config) (isDry : Bool) (before : Workspace)
    (passed : List Config.Target) (results : List Result) (after : Workspace) : Prop where
  wellFormed : after.tree.WellFormed
  draws : after.lottery.Within before.lottery
  sameFor (target : Config.Target) : (∀ other ∈ passed, SparedBy root config other target) →
    SameFor root config target before after
  each : List.Forall₂
    (fun target result => ∃ ready,
      Ready root config before target ready
      ∧ result = (generated root config isDry target [] ready).1
      ∧ ∀ names, after.tree.file? (outputOf root config target ++ names)
          = (generated root config isDry target [] ready).2.tree.file?
              (outputOf root config target ++ names))
    passed results
  outside (place : Location) : (∀ target ∈ passed, ¬ outputOf root config target <+: place) →
    after.tree.file? place = before.tree.file? place

/-- One more target, after some that leave it alone and that it leaves alone. -/
theorem Serial.concat {data : Plain} {passed : List Config.Target} {results : List Result}
    {middle : Workspace} (accepted : Config.ofPlain data = .ok config)
    (serial : Serial root config isDry before passed results middle)
    (independent : ∀ other ∈ passed, Independent root config other target)
    (inside : StaticsInside root config target middle)
    : let last := generated root config isDry target [] middle
      Serial root config isDry before (passed ++ [target]) (results ++ [last.1]) last.2 := by
  rcases ran : generated root config isDry target [] middle with ⟨result, after⟩
  have same := serial.sameFor target fun other member => (independent other member).1
  have framed := framed_of_generated (Config.isSuffix_of_ofPlain accepted) serial.wellFormed
    inside.stayBelow ran
  have kept {place : Location} (outside : ¬ outputOf root config target <+: place)
      : after.tree.file? place = middle.tree.file? place :=
    file?_generated accepted serial.wellFormed inside.stayBelow ran outside
  refine ⟨framed.wellFormed, framed.draws.trans serial.draws, fun later spared => ?_, ?_,
    fun place outside => ?_⟩
  · rw [List.forall_mem_append, List.forall_mem_singleton] at spared
    exact (serial.sameFor later spared.1).trans
      (sameFor_of_generated accepted serial.wellFormed inside spared.2 ran)
  · refine List.rel_append ?_ (.cons ⟨middle, ⟨serial.wellFormed, serial.draws, same, inside⟩, ?_⟩
      .nil)
    · refine ((List.forall₂_and_left _ _).2 ⟨fun _ => id, serial.each⟩).imp
        fun passedTarget result ⟨isPassed, ready, isReady, eq, files⟩ =>
          ⟨ready, isReady, eq, fun names => ?_⟩
      have apart := (independent passedTarget isPassed).2.output
      rw [kept (FileTree.not_prefix_of_apart apart.notBelow apart.notAbove
        (List.prefix_append _ names)), files]
    · rw [ran]
      exact ⟨rfl, fun _ => rfl⟩
  · rw [List.forall_mem_append, List.forall_mem_singleton] at outside
    rw [kept outside.2, serial.outside place outside.1]

/-- Independent targets, one after the other, by induction on those that have been passed. -/
theorem serial_of_independent {data : Plain} {targets passed : List Config.Target}
    (accepted : Config.ofPlain data = .ok config) (wellFormed : before.tree.WellFormed)
    (inside : StayInside root config isDry targets before) (within : List.Subperm passed targets)
    (independent : passed.Pairwise (Independent root config))
    : let run := generatedEach root config isDry passed before
      Serial root config isDry before passed run.1 run.2 := by
  induction passed using List.reverseRecOn with
  | nil => exact ⟨wellFormed, .refl _, fun _ _ => .refl _, .nil, fun _ _ => rfl⟩
  | append_singleton passed target ih =>
      obtain ⟨earlier, _, each⟩ := List.pairwise_append.1 independent
      have serial := ih ((List.sublist_append_left _ _).subperm.trans within) earlier
      simp only [generatedEach_concat]
      exact serial.concat accepted
        (fun other member => each other member target (List.mem_singleton_self _))
        (inside passed target within)

/-- The first name that no target has is not known. The induction is on the names. -/
theorem select_of_unknown {names : List String} {name : String} (member : name ∈ names)
    (unknown : ∀ target ∈ config.targets, target.name ≠ name)
    : ∃ name ∈ names,
        (∀ target ∈ config.targets, target.name ≠ name)
        ∧ config.select names
          = .error (.unknownTarget name (config.targets.map Config.Target.name)) := by
  rw [Config.select, if_neg (by simpa using List.ne_nil_of_mem member)]
  induction names with
  | nil => exact absurd member List.not_mem_nil
  | cons first names ih =>
      rcases found : config.targets.find? (·.name == first) with _ | target
      · refine ⟨first, List.mem_cons_self .., fun target isTarget same => ?_, ?_⟩
        · exact List.find?_eq_none.1 found target isTarget (beq_iff_eq.2 same)
        · rw [List.mapM_cons, found]
          rfl
      · have later : name ∈ names := by
          rcases List.mem_cons.1 member with rfl | later
          · have same : target.name = name := by simpa using List.find?_some found
            exact absurd same (unknown target (List.mem_of_find?_eq_some found))
          · exact later
        obtain ⟨missing, inRest, isMissing, refused⟩ := ih later
        refine ⟨missing, List.mem_cons_of_mem _ inRest, isMissing, ?_⟩
        rw [List.mapM_cons, found, refused]
        rfl

theorem target_generated (log : List Log.Entry) (workspace : Workspace)
    : (generated root config isDry target log workspace).1.target = target.name := by
  rcases ran : generated root config isDry target log workspace with ⟨result, after⟩
  cases targetRun_of_generated ran <;> rfl

section

variable {data : Plain} {lottery : Lottery} {passed passed' : List Config.Target}
  {results results' : List Result} {after' : Workspace}
  (accepted : Config.ofPlain data = .ok config)
  (serial : Serial root config isDry before passed results after)
  (serial' : Serial root config isDry { before with lottery } passed' results' after')

theorem Serial.target_eq (serial : Serial root config isDry before passed results after)
    : results.map Result.target = passed.map Config.Target.name := by
  rw [← List.forall₂_eq_eq_eq, List.forall₂_map_left_iff, List.forall₂_map_right_iff]
  exact serial.each.flip.imp fun result target ⟨ready, _, eq, _⟩ =>
    eq ▸ target_generated [] ready

include accepted serial serial'

/-- Two orders of independent targets leave the same files. -/
theorem Serial.file?_eq (same : ∀ target, target ∈ passed' ↔ target ∈ passed)
    (avoids : ∀ target ∈ passed, Avoids before.lottery (outputOf root config target))
    (avoids' : ∀ target ∈ passed, Avoids lottery (outputOf root config target)) (place : Location)
    : after'.tree.file? place = after.tree.file? place := by
  by_cases isInside : ∃ target ∈ passed, outputOf root config target <+: place
  · obtain ⟨target, member, names, rfl⟩ := isInside
    obtain ⟨_, ready, isReady, _, files⟩ := exists_of_forall₂ serial.each member
    obtain ⟨_, ready', isReady', _, files'⟩ :=
      exists_of_forall₂ serial'.each ((same target).2 member)
    rw [files, files']
    exact (isReady.generated_same isReady' accepted (avoids target member) (avoids' target member)
      isDry).2 names
  · have outside : ∀ target ∈ passed, ¬ outputOf root config target <+: place :=
      fun target member isAbove => isInside ⟨target, member, isAbove⟩
    rw [serial.outside place outside,
      serial'.outside place fun target member => outside target ((same target).1 member)]

/-- Two orders of independent targets have the same results. -/
theorem Serial.sameResult (distinct : (config.targets.map Config.Target.name).Nodup)
    (configured : ∀ target ∈ passed, target ∈ config.targets)
    (same : ∀ target, target ∈ passed' ↔ target ∈ passed)
    (avoids : ∀ target ∈ passed, Avoids before.lottery (outputOf root config target))
    (avoids' : ∀ target ∈ passed, Avoids lottery (outputOf root config target))
    {result result' : Result} (member : result ∈ results) (member' : result' ∈ results')
    (sameTarget : result'.target = result.target)
    : SameResult before.lottery lottery result result' := by
  obtain ⟨target, isPassed, ready, isReady, rfl, _⟩ := mem_of_forall₂ serial.each member
  obtain ⟨target', isPassed', ready', isReady', rfl, _⟩ := mem_of_forall₂ serial'.each member'
  rw [target_generated, target_generated] at sameTarget
  rw [same] at isPassed'
  obtain rfl : target' = target := List.inj_on_of_nodup_map distinct
    (configured target' isPassed') (configured target isPassed) sameTarget
  exact (isReady.generated_same isReady' accepted (avoids _ isPassed) (avoids' _ isPassed) isDry).1

end

/-- Independent targets do not disturb one another. In each order of their names, and whatever names
are drawn for new directories, there is one result for each name, in the order of the names, the same
as that of the target on its own and as in each other order, and the files in the end are the same. If
a name is that of no target, the first such name is refused and nothing changes.
-/
theorem generatedAll_of_independent {data : Plain} (accepted : Config.ofPlain data = .ok config)
    (wellFormed : before.tree.WellFormed)
    : let alone (target : Config.Target) := (generated root config isDry target [] before).1
      (∀ targets : List Config.Target, targets ≠ [] → (∀ target ∈ targets, target ∈ config.targets) →
        targets.Pairwise (Independent root config) → StayInside root config isDry targets before →
        (∀ target ∈ targets, Avoids before.lottery (outputOf root config target)) →
        ∃ results after,
          generatedAll root config (targets.map Config.Target.name) isDry before
            = (.ok (.ofResults results), after)
          ∧ results.map Result.target = targets.map Config.Target.name
          ∧ List.Forall₂
              (fun target => SameResult before.lottery before.lottery (alone target)) targets results
          ∧ ∀ order : List Config.Target, order.Perm targets → ∀ lottery : Lottery,
              StayInside root config isDry targets { before with lottery } →
              (∀ target ∈ targets, Avoids lottery (outputOf root config target)) →
              ∃ results' after',
                generatedAll root config (order.map Config.Target.name) isDry
                    { before with lottery }
                  = (.ok (.ofResults results'), after')
                ∧ results'.map Result.target = order.map Config.Target.name
                ∧ (∀ result ∈ results, ∀ result' ∈ results', result'.target = result.target →
                    SameResult before.lottery lottery result result')
                ∧ ∀ place, after'.tree.file? place = after.tree.file? place)
      ∧ ∀ (names : List String) (name : String),
          name ∈ names → (∀ target ∈ config.targets, target.name ≠ name) →
          ∃ unknown ∈ names,
            (∀ target ∈ config.targets, target.name ≠ unknown)
            ∧ generatedAll root config names isDry before
              = (.error (.unknownTarget unknown (config.targets.map Config.Target.name)),
                before) := by
  intro alone
  refine ⟨fun targets nonempty configured independent inside avoids => ?_,
    fun names name member unknown => ?_⟩
  · have distinct := (Config.isSound_of_ofPlain accepted).distinct
    have each (order : List Config.Target) (perm : order.Perm targets) (lottery : Lottery)
        (inside : StayInside root config isDry targets { before with lottery })
        : let run := generatedEach root config isDry order { before with lottery }
          generatedAll root config (order.map Config.Target.name) isDry { before with lottery }
            = (.ok (.ofResults run.1), run.2)
          ∧ Serial root config isDry { before with lottery } order run.1 run.2 := by
      have selected := Config.select_names distinct
        (fun empty => nonempty (List.nil_perm.1 (empty ▸ perm)))
        fun target member => configured target (perm.mem_iff.1 member)
      exact ⟨generatedAll_eq selected _, serial_of_independent accepted wellFormed inside
        perm.subperm ((perm.pairwise_iff Independent.symm).2 independent)⟩
    obtain ⟨ran, serial⟩ := each targets (.refl _) before.lottery inside
    refine ⟨_, _, ran, serial.target_eq, ?_, fun order perm lottery inside' avoids' => ?_⟩
    · refine ((List.forall₂_and_left _ _).2 ⟨fun _ => id, serial.each⟩).imp
        fun target result ⟨member, ready, isReady, eq, _⟩ => ?_
      have alone : Ready root config before target before :=
        ⟨wellFormed, .refl _, .refl _, inside [] target
          ((List.singleton_sublist.2 member).subperm)⟩
      rw [eq]
      exact (alone.generated_same isReady accepted (avoids target member) (avoids target member)
        isDry).1
    · obtain ⟨ran', serial'⟩ := each order perm lottery inside'
      exact ⟨_, _, ran', serial'.target_eq,
        fun result member result' member' => serial.sameResult accepted serial' distinct configured
          (fun _ => perm.mem_iff) avoids avoids' member member',
        serial.file?_eq accepted serial' (fun _ => perm.mem_iff) avoids avoids'⟩
  · obtain ⟨missing, isMissing, unknown, refused⟩ := select_of_unknown member unknown
    exact ⟨missing, isMissing, unknown, generatedAll_of_unknown refused before⟩

-----------------------------------------------------------------------------------------
-- Samples
-----------------------------------------------------------------------------------------

/-- What has to be asked of the patterns for files to copy is asked of the plan of their search. -/
theorem sparedBy_of_statics (source : Apart (outputOf root config other) (sourceOf root target))
    (output : Apart (outputOf root config other) (outputOf root config target))
    (data : ∀ file ∈ target.data,
      ¬ outputOf root config other <+: PathText.locate [] (PathText.resolve root file))
    (statics : ∀ plan ∈ (Glob.planOf (sourceQuery target.statics (target.sourceDir root)
        (target.outputDir root config.naming))).toOption,
      (∀ group ∈ plan.lookups, ∀ text ∈ group.texts,
        ¬ outputOf root config other
          <+: PathText.locate (sourceOf root target) (String.ofList text))
      ∧ ∀ group ∈ plan.searches,
          ¬ outputOf root config other
            <+: PathText.locate (sourceOf root target) (String.ofList group.base))
    : SparedBy root config other target := by
  have isPlan {plan : Glob.Plan} (planned : IsStaticPlan root config target plan) :=
    statics plan (Outcome.toOption_eq_some_iff.2 planned)
  exact ⟨source, output, data, fun plan planned => (isPlan planned).1,
    fun plan planned => (isPlan planned).2⟩

/-- Of two targets at most one has been generated before another one. -/
theorem stayInside_pair {first second : Config.Target}
    (inside : ∀ passed ∈ [[], [first], [second]], ∀ target ∈ [first, second],
      StaticsInside root config target (generatedEach root config isDry passed before).2)
    : StayInside root config isDry [first, second] before := by
  intro passed target within
  have isTarget : target ∈ [first, second] := within.subset (by simp)
  have short := within.length_le
  rcases passed with _ | ⟨one, _ | ⟨two, passed⟩⟩
  · exact inside [] (by simp) target isTarget
  · have isOne : one ∈ [first, second] := within.subset (by simp)
    refine inside [one] ?_ target isTarget
    rcases List.mem_cons.1 isOne with rfl | isSecond
    · simp
    · simp [List.mem_singleton.1 isSecond]
  · simp at short

/-- A target whose files cannot be written. -/
def crampedTarget : Config.Target := sampleTarget "meta.typ/old.txt"

/-- A target with a data file. -/
def posterTarget : Config.Target := ⟨"poster", "poster", ["poster.json"], [], none⟩

def fairConfig : Config := ⟨10000000, ⟨".tmp", "_generated"⟩, [crampedTarget, posterTarget]⟩

def fairData : Plain :=
  .record [("targets", .list [
    .record [("name", .text "paper"), ("source", .text "paper"),
      ("static", .text "meta.typ/old.txt")],
    .record [("name", .text "poster"), ("source", .text "poster"),
      ("data", .text "poster.json")]])]

/-- The sample with the source directory and the data of another target. -/
def sampleFair : Workspace :=
  { samplePaper with tree := ⟨samplePaper.tree.entries ++ [
    (["poster"], .directory),
    (["poster.json"], .file (Encoding.encode "{}")),
    (["poster", "sheet.tmp.typ"], .file (Encoding.encode "sheet"))]⟩ }

/-- The sample with a lottery that draws other names. -/
def sampleFairLater : Workspace := { sampleFair with lottery := .countingFrom 7 }

/-- The first target of the sample fails, with a message that names the new directory, and the other
one is generated, in both orders and with different names.
-/
theorem generatedAll_of_independent_fair
    : let cramped (workspace : Workspace) :=
        (generated "/" fairConfig false crampedTarget [] workspace).1.error?
      cramped sampleFair ≠ cramped sampleFairLater
      ∧ ∃ results after results' after',
          generatedAll "/" fairConfig ["paper", "poster"] false sampleFair
            = (.ok (.ofResults results), after)
          ∧ generatedAll "/" fairConfig ["poster", "paper"] false sampleFairLater
            = (.ok (.ofResults results'), after')
          ∧ results.map Result.target = ["paper", "poster"]
          ∧ results'.map Result.target = ["poster", "paper"]
          ∧ (∀ result ∈ results, ∀ result' ∈ results', result'.target = result.target →
              SameResult sampleFair.lottery sampleFairLater.lottery result result')
          ∧ (∀ place, after'.tree.file? place = after.tree.file? place)
          ∧ generatedAll "/" fairConfig ["paper", "none"] false sampleFair
            = (.error (.unknownTarget "none" ["paper", "poster"]), sampleFair) := by
  have accepted : Config.ofPlain fairData = .ok fairConfig := rfl
  have independent : Independent "/" fairConfig crampedTarget posterTarget := by
    refine ⟨sparedBy_of_statics ?_ ?_ ?_ ?_, sparedBy_of_statics ?_ ?_ ?_ ?_⟩ <;> decide +kernel
  have inside : StayInside "/" fairConfig false [crampedTarget, posterTarget] sampleFair :=
    stayInside_pair (by decide +kernel)
  have inside' : StayInside "/" fairConfig false [crampedTarget, posterTarget] sampleFairLater :=
    stayInside_pair (by decide +kernel)
  have avoids (lottery : Lottery) (target : Config.Target)
      (member : target ∈ [crampedTarget, posterTarget])
      : Avoids lottery (outputOf "/" fairConfig target) := by
    refine avoids_of_name lottery ?_
    revert target
    decide +kernel
  obtain ⟨orders, refuses⟩ := @generatedAll_of_independent sampleFair "/" fairConfig false _
    accepted (by decide +kernel)
  obtain ⟨results, after, ran, targets, _, reordered⟩ := orders [crampedTarget, posterTarget]
    (by simp) (fun _ member => member) (List.pairwise_pair.2 independent) inside (avoids _)
  obtain ⟨results', after', ran', targets', same, files⟩ :=
    reordered [posterTarget, crampedTarget] (.swap ..) (.countingFrom 7) inside' (avoids _)
  obtain ⟨unknown, member, isUnknown, refused⟩ := refuses ["paper", "none"] "none" (by decide)
    (by decide)
  have isNone : unknown = "none" := by
    rcases List.mem_cons.1 member with rfl | later
    · exact absurd rfl (isUnknown crampedTarget (List.mem_cons_self ..))
    · exact List.mem_singleton.1 later
  subst isNone
  exact ⟨by decide +kernel, results, after, results', after', ran, ran', targets, targets', same,
    files, refused⟩

/-- A target that is generated to where another one looks for files to copy. -/
def letterTarget : Config.Target := ⟨"letter", "letter", [], [], some (some "post/letter")⟩

def peekTarget : Config.Target :=
  ⟨"peek", "peek", [], ["../post/letter/*.pdf"], some (some "view")⟩

def peekConfig : Config := ⟨10000000, ⟨".tmp", "_generated"⟩, [letterTarget, peekTarget]⟩

def peekData : Plain :=
  .record [("targets", .list [
    .record [("name", .text "letter"), ("source", .text "letter"),
      ("output", .text "post/letter")],
    .record [("name", .text "peek"), ("source", .text "peek"),
      ("static", .text "../post/letter/*.pdf"), ("output", .text "view")]])]

/-- A file stands where the output directory of the first target comes to be. -/
def samplePost : Workspace where
  directory := []
  tree := ⟨[
    (["letter"], .directory),
    (["letter", "a.tmp.txt"], .file (Encoding.encode "a")),
    (["peek"], .directory),
    (["peek", "b.tmp.txt"], .file (Encoding.encode "b")),
    (["post"], .directory),
    (["post", "letter"], .file (Encoding.encode "old"))]⟩

/-- A target whose output directory has a name that may be drawn. -/
def stampTarget : Config.Target := ⟨"stamp", "letter", [], [], some (some "post/.docstamp-000000")⟩

def stampConfig : Config := ⟨10000000, ⟨".tmp", "_generated"⟩, [stampTarget]⟩

def stampData : Plain :=
  .record [("targets", .list [
    .record [("name", .text "stamp"), ("source", .text "letter"),
      ("output", .text "post/.docstamp-000000")]])]

/-- It is not enough that the directories are apart. A pattern for files to copy is searched in the
output directory of another target, where there is a file before that target is generated: the search
fails in one order of the names and finds nothing in the other one. Nor is it enough that a name is
free. Where the name of the output directory itself is drawn, the new directory is removed as the old
one, and the target fails, which it does not where another name is drawn.
-/
theorem failed_of_order
    : Config.ofPlain peekData = .ok peekConfig
      ∧ samplePost.tree.WellFormed
      ∧ (Apart (outputOf "/" peekConfig letterTarget) (sourceOf "/" peekTarget)
        ∧ Apart (outputOf "/" peekConfig peekTarget) (sourceOf "/" letterTarget)
        ∧ Apart (outputOf "/" peekConfig letterTarget) (outputOf "/" peekConfig peekTarget))
      ∧ (letterTarget.data = [] ∧ peekTarget.data = [])
      ∧ StayInside "/" peekConfig false [letterTarget, peekTarget] samplePost
      ∧ (generatedAll "/" peekConfig ["letter", "peek"] false samplePost).1.toOption.map
          Summary.failed = some []
      ∧ (generatedAll "/" peekConfig ["peek", "letter"] false samplePost).1.toOption.map
          Summary.failed = some ["peek"]
      ∧ Config.ofPlain stampData = .ok stampConfig
      ∧ (generatedAll "/" stampConfig ["stamp"] false samplePost).1.toOption.map
          Summary.failed = some ["stamp"]
      ∧ (generatedAll "/" stampConfig ["stamp"] false
            { samplePost with lottery := .countingFrom 7 }).1.toOption.map
          Summary.failed = some [] := by
  refine ⟨rfl, ?_, ?_, ⟨rfl, rfl⟩, stayInside_pair ?_, ?_, ?_, rfl, ?_, ?_⟩ <;> decide +kernel

end Stencil.Generate
