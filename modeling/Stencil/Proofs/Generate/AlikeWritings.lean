import Stencil.Proofs.Files.Renamings
import Stencil.Proofs.Generate.Frames

/-! Writing a plan in two workspaces. Where the directories that a target works in are the same,
writing comes to the same but for the name of the new directory, which is drawn in each of them.
-/

namespace Stencil.Generate

open Stencil.Files

variable {first second before after : Workspace} {source output fresh fresh' : Location}
  {plan : Plan} {name name' : String}

-----------------------------------------------------------------------------------------
-- Where a target works
-----------------------------------------------------------------------------------------

/-- The directories that a target works in. -/
inductive IsWorkplace (source output : Location) : Location → Prop
  | source : IsWorkplace source output source
  | output : IsWorkplace source output output

/-- A place at or below a directory that a target works in. -/
def InWorkplace (source output place : Location) : Prop :=
  ∃ workplace, IsWorkplace source output workplace ∧ workplace <+: place

theorem IsWorkplace.inside {workplace : Location} (h : IsWorkplace source output workplace)
    (names : Location)
    : InWorkplace source output (workplace ++ names) :=
  ⟨workplace, h, List.prefix_append _ _⟩

/-- A place that a target looks at once there is a new directory to write to. -/
inductive InStage (source output fresh : Location) : Location → Prop
  | workplace {place : Location} (h : InWorkplace source output place)
    : InStage source output fresh place
  | fresh (names : Location) : InStage source output fresh (fresh ++ names)
  | parent : InStage source output fresh output.dropLast

-----------------------------------------------------------------------------------------
-- Writing to a new directory
-----------------------------------------------------------------------------------------

/-- Writes a plan to a new directory and puts that in the place of the output directory. -/
def writeBy (fresh outputDir : String) (plan : Plan) : ExceptT Failure (StateM Workspace) Unit := do
  let written ← attempt do
    writeFiles fresh plan
    (replaceFolder fresh outputDir : ExceptT Fault (StateM Workspace) Unit)
  match written with
  | .ok () => return ()
  | .error fault =>
    (Disk.remove fresh : ExceptT Fault (StateM Workspace) Unit).adapt .file
    throw (.generation (.write outputDir fault.message))

theorem writeOutput_eq (outputDir : String) (plan : Plan)
    : (writeOutput outputDir plan : ExceptT Failure (StateM Workspace) Unit)
      = (makeFreshIn (PathText.parent outputDir) freshStem
          : ExceptT Fault (StateM Workspace) String).adapt .file
        >>= fun fresh => writeBy fresh outputDir plan :=
  rfl

section

variable (named : fresh.Named) (beside : fresh.dropLast = output.dropLast) (stays : plan.StaysBelow)
  (isSource : plan.sourceDir = PathText.absolute source) (named' : source.Named)

include named beside stays isSource named'

theorem runsAlike_writeFiles
    : RunsAlike (InStage source output fresh) (writeFiles (PathText.absolute fresh) plan) := by
  have above (names : Location) : InStage source output fresh (fresh ++ names).dropLast := by
    by_cases here : names = []
    · rw [here, List.append_nil, beside]
      exact .parent
    · rw [List.dropLast_append_of_ne_nil here]
      exact .fresh _
  refine (RunsAlike.forM fun rendered member => ?_).bind fun _ =>
    RunsAlike.forM fun file member => ?_
  · exact runsAlike_writeText (PathText.spells_append named (stays.rendered rendered member))
      (.fresh _) (above _) _
  · have below := stays.copied file member
    rw [isSource]
    exact runsAlike_copyFile (PathText.spells_append named below) (.fresh _) (above _)
      (PathText.spells_append named' below) (.workplace (IsWorkplace.source.inside _))

theorem runsAlike_writeBy (named'' : output.Named)
    : RunsAlike (InStage source output fresh)
        (writeBy (PathText.absolute fresh) (PathText.absolute output) plan) := by
  have spells := PathText.spells_absolute named
  refine RunsAlike.bind (RunsAlike.attempt ?_) fun written => ?_
  · exact (runsAlike_writeFiles named beside stays isSource named').bind fun _ =>
      runsAlike_replaceFolder (PathText.spells_absolute named'') spells .fresh
        (.workplace ⟨output, .output, List.prefix_rfl⟩) .parent
  · split
    · exact runsAlike_pure _
    · have here : InStage source output fresh fresh := by simpa using InStage.fresh []
      exact ((runsAlike_remove spells here).adapt _).bind fun _ => runsAlike_throw _

end

-----------------------------------------------------------------------------------------
-- Writing to a directory with another name
-----------------------------------------------------------------------------------------

/-- Two failures that are the same but for a name in the message. -/
structure SameFailure (name name' : String) (failure failure' : Failure) : Prop where
  code : failure'.code? = failure.code?
  message : SameBut name name' failure.message failure'.message

/-- A place that is not the output directory is not above what is in there. -/
theorem not_prefix_output (nonempty : output ≠ []) (differ : output ≠ output.dropLast ++ [name])
    (names : Location)
    : ¬ output.dropLast ++ [name] <+: output ++ names :=
  Beside.not_prefix_append ⟨List.concat_ne_nil _ _, nonempty, List.dropLast_concat⟩ differ.symm names

/-- A place beside the output directory that is above it is the output directory. -/
theorem eq_fresh_of_isBelow (isBelow : output.dropLast ++ [name] <+: output)
    : output = output.dropLast ++ [name] := by
  by_cases atTop : output = []
  · rw [atTop, List.prefix_nil] at isBelow
    exact absurd isBelow (List.concat_ne_nil _ _)
  · by_contra differ
    exact not_prefix_output atTop differ [] (by rwa [List.append_nil])

/-- The output directory and what is in there keep their places, unless that is the top of the tree.
-/
theorem exchange_output (nonempty : output ≠ []) (differ : output ≠ output.dropLast ++ [name])
    (differ' : output ≠ output.dropLast ++ [name']) (names : Location)
    : exchange output.dropLast name name' (output ++ names) = output ++ names :=
  swap_outside (not_prefix_output nonempty differ names) (not_prefix_output nonempty differ' names)

section

variable (named : output.Named) (isName : IsName name) (isName' : IsName name')
  (stays : plan.StaysBelow) (isSource : plan.sourceDir = PathText.absolute source)
  (named' : source.Named)
  (kept : ∀ file ∈ plan.copied,
    exchange output.dropLast name name' (source ++ PathText.place file)
      = source ++ PathText.place file)

include named isName isName' stays isSource named' kept

theorem runsRenamed_writeFiles
    : RunsRenamed (exchange output.dropLast name name') (SameFault name name')
        (writeFiles (PathText.absolute (output.dropLast ++ [name])) plan)
        (writeFiles (PathText.absolute (output.dropLast ++ [name'])) plan) := by
  have isRenaming := isRenaming_exchange named.dropLast isName isName'
  refine (RunsRenamed.forM fun rendered member => ?_).bind fun _ =>
    RunsRenamed.forM fun file member => ?_
  · exact runsRenamed_writeText isRenaming
      (twins_append named.dropLast isName isName' (stays.rendered rendered member))
      (sameBut_parent _ name name' _) _
  · have below := stays.copied file member
    rw [isSource]
    exact runsRenamed_copyFile isRenaming (twins_append named.dropLast isName isName' below)
      (sameBut_parent _ name name' _)
      (twins_self (PathText.spells_append named' below) (kept file member) name name')

theorem runsRenamed_writeBy (differ : output ≠ output.dropLast ++ [name])
    (differ' : output ≠ output.dropLast ++ [name'])
    : RunsRenamed (exchange output.dropLast name name') (SameFailure name name')
        (writeBy (PathText.absolute (output.dropLast ++ [name])) (PathText.absolute output) plan)
        (writeBy (PathText.absolute (output.dropLast ++ [name'])) (PathText.absolute output)
          plan) := by
  have isRenaming := isRenaming_exchange named.dropLast isName isName'
  have twins := twins_fresh named.dropLast isName isName'
  have below := exchange_below output.dropLast name name'
  have here : exchange output.dropLast name name' (output.dropLast ++ [name])
      = output.dropLast ++ [name'] := by
    simpa using below []
  have same : exchange output.dropLast name name' output = output := by
    by_cases atTop : output = []
    · rw [isRenaming.eq_nil_iff.2 atTop, atTop]
    · simpa using exchange_output atTop differ differ' []
  have place := twins_self (PathText.spells_absolute named) same name name'
  have parents : SameBut name name' (PathText.absolute output.dropLast)
      (PathText.absolute (exchange output.dropLast name name' output.dropLast)) := by
    rw [exchange_parent]
    exact .same _
  refine RunsRenamed.attempt_bind (R := SameFault name name') ?_ fun result result' matched => ?_
  · exact (runsRenamed_writeFiles named isName isName' stays isSource named' kept).bind fun _ =>
      runsRenamed_replaceFolder isRenaming place parents twins
        (fun names => by rw [below, here]) fun nonempty names => by
          rw [exchange_output nonempty differ differ', same]
  · cases matched with
    | ok value => exact runsRenamed_pure _
    | error related =>
        refine ((runsRenamed_remove isRenaming twins).adapt fun _ _ related =>
          ⟨rfl, related.message⟩).bind fun _ => runsRenamed_throw ⟨rfl, ?_⟩
        exact (SameBut.same _).append related.message

end

-----------------------------------------------------------------------------------------
-- Two new directories
-----------------------------------------------------------------------------------------

/-- Once a new directory stands, so do the directories above it, and all else is as before. -/
theorem Prepared.entry?_eq (prepared : Prepared output fresh before after)
    (wellFormed : after.tree.WellFormed) {place : Location} (outside : ¬ fresh <+: place)
    : after.tree.entry? place
      = if place <+: output.dropLast then some .directory else before.tree.entry? place := by
  split
  · rename_i isAbove
    rw [← prepared.beside] at isAbove
    obtain ⟨names, eq⟩ := isAbove
    have parent := prepared.parent
    rw [← eq] at parent
    by_cases here : names = []
    · rwa [here, List.append_nil] at parent
    · exact wellFormed.folder_above here parent
  · rename_i notAbove
    have differ : place ≠ fresh := fun same => outside (same ▸ List.prefix_rfl)
    exact (prepared.adds place differ).resolve_right fun added => notAbove added.2.2

/-- In a new directory there is nothing yet. -/
theorem Prepared.entry?_below (prepared : Prepared output fresh before after) (names : Location)
    : after.tree.entry? (fresh ++ names) = if names = [] then some .directory else none := by
  split
  · rename_i here
    rw [here, List.append_nil, prepared.stands]
  · rename_i below
    exact prepared.empty names below

/-- What is at or above a directory is not below a place in there. -/
theorem not_prefix_of_above {parent place : Location} (isAbove : place <+: parent) (name : String)
    : ¬ parent ++ [name] <+: place := by
  intro isBelow
  have longer := (isBelow.trans isAbove).length_le
  rw [List.length_append, List.length_singleton] at longer
  omega

section

variable {made made' : Workspace}
  (prepared : Prepared output (output.dropLast ++ [name]) first made)
  (prepared' : Prepared output (output.dropLast ++ [name']) second made')

include prepared prepared'

/-- There is nothing in either new directory. -/
theorem entry?_inFresh (names : Location)
    : made'.tree.entry? (output.dropLast ++ [name'] ++ names)
      = made.tree.entry? (exchange output.dropLast name name'
          (output.dropLast ++ [name'] ++ names)) := by
  rw [exchange, swap_second (beside_concat output.dropLast name name'), prepared.entry?_below,
    prepared'.entry?_below]

variable (wellFormed : made.tree.WellFormed) (wellFormed' : made'.tree.WellFormed)

include wellFormed wellFormed'

/-- The directories above the new ones stand in both workspaces. -/
theorem entry?_onWay {place : Location} (isAbove : place <+: output.dropLast)
    : made'.tree.entry? place = made.tree.entry? (exchange output.dropLast name name' place) := by
  have notFresh := not_prefix_of_above isAbove name
  have notFresh' := not_prefix_of_above isAbove name'
  rw [exchange, swap_outside notFresh notFresh', prepared.entry?_eq wellFormed notFresh,
    prepared'.entry?_eq wellFormed' notFresh', if_pos isAbove, if_pos isAbove]

variable (alike : Alike (InWorkplace source output) first second)
  (outside : ∀ workplace, IsWorkplace source output workplace →
    ¬ output.dropLast ++ [name] <+: workplace ∧ ¬ output.dropLast ++ [name'] <+: workplace)

include alike outside

/-- What stands in the directories that a target works in is the same, but for the names of the new
directories.
-/
theorem entry?_of_prepared {place : Location} (inside : InWorkplace source output place)
    : made'.tree.entry? place = made.tree.entry? (exchange output.dropLast name name' place) := by
  by_cases isFresh' : output.dropLast ++ [name'] <+: place
  · obtain ⟨names, rfl⟩ := isFresh'
    exact entry?_inFresh prepared prepared' names
  by_cases isFresh : output.dropLast ++ [name] <+: place
  · -- Neither new directory was there, and both are in a directory that the target works in.
    obtain ⟨names, rfl⟩ := isFresh
    obtain ⟨workplace, isWorkplace, isAbove⟩ := inside
    have isAbove : workplace <+: output.dropLast := by
      have notBelow := (outside workplace isWorkplace).1
      have isPrefix := (List.prefix_or_prefix_of_prefix isAbove
        (List.prefix_append _ names)).resolve_right notBelow
      exact (List.prefix_concat_iff.1 isPrefix).resolve_left fun same =>
        notBelow (same ▸ List.prefix_rfl)
    have same (name : String)
        : second.tree.entry? (output.dropLast ++ [name] ++ names)
          = first.tree.entry? (output.dropLast ++ [name] ++ names) := by
      refine alike.agree.entry? _ ⟨workplace, isWorkplace, ?_⟩
      rw [List.append_assoc]
      exact isAbove.trans (List.prefix_append _ _)
    have differ : output.dropLast ++ [name] ≠ output.dropLast ++ [name'] :=
      fun same => isFresh' (same ▸ List.prefix_append _ _)
    have notFresh := (beside_concat output.dropLast name name').not_prefix_append differ names
    have notAbove (name : String) : ¬ output.dropLast ++ [name] ++ names <+: output.dropLast :=
      fun isAbove => not_prefix_of_above List.prefix_rfl name
        ((List.prefix_append _ _).trans isAbove)
    rw [exchange_below, prepared'.entry?_eq wellFormed' isFresh', if_neg (notAbove name),
      prepared.entry?_eq wellFormed notFresh, if_neg (notAbove name'), same, prepared.missing,
      ← same, prepared'.missing]
  · rw [exchange, swap_outside isFresh isFresh', prepared.entry?_eq wellFormed isFresh,
      prepared'.entry?_eq wellFormed' isFresh', alike.agree.entry? place inside]

/-- Above a directory that a target works in, the same files stand. -/
theorem file?_above_workplace {place rest : Location}
    (isWorkplace : IsWorkplace source output (place ++ rest))
    : made'.tree.file? place = made.tree.file? (exchange output.dropLast name name' place) := by
  obtain ⟨notFresh, notFresh'⟩ := outside _ isWorkplace
  replace notFresh : ¬ output.dropLast ++ [name] <+: place := fun isBelow =>
    notFresh (isBelow.trans (List.prefix_append place rest))
  replace notFresh' : ¬ output.dropLast ++ [name'] <+: place := fun isBelow =>
    notFresh' (isBelow.trans (List.prefix_append place rest))
  by_cases isAbove : place <+: output.dropLast
  · exact FileTree.file?_congr (entry?_onWay prepared prepared' wellFormed wellFormed' isAbove)
  · have kept : made.tree.file? place = first.tree.file? place :=
      FileTree.file?_congr (by rw [prepared.entry?_eq wellFormed notFresh, if_neg isAbove])
    have kept' : made'.tree.file? place = second.tree.file? place :=
      FileTree.file?_congr (by rw [prepared'.entry?_eq wellFormed' notFresh', if_neg isAbove])
    rw [exchange, swap_outside notFresh notFresh', kept, kept',
      alike.agree.file? place rest ⟨_, isWorkplace, List.prefix_rfl⟩]

/-- At and above the places that a target works at, the same files stand but for the names of the new
directories.
-/
theorem file?_of_prepared {place names : Location}
    (isFixed : InStage source output (output.dropLast ++ [name']) (place ++ names))
    : made'.tree.file? place = made.tree.file? (exchange output.dropLast name name' place) := by
  have onWay (isAbove : place <+: output.dropLast) :=
    entry?_onWay prepared prepared' wellFormed wellFormed' isAbove
  generalize last : place ++ names = whole at isFixed
  have isAbove : place <+: whole := ⟨names, last⟩
  by_cases isFresh' : output.dropLast ++ [name'] <+: place
  · obtain ⟨rest, rfl⟩ := isFresh'
    exact FileTree.file?_congr (entry?_inFresh prepared prepared' rest)
  cases isFixed with
  | parent => exact FileTree.file?_congr (onWay isAbove)
  | fresh rest =>
      have short := (List.prefix_or_prefix_of_prefix isAbove
        (List.prefix_append _ rest)).resolve_right isFresh'
      exact FileTree.file?_congr (onWay ((List.prefix_concat_iff.1 short).resolve_left fun same =>
        isFresh' (same ▸ List.prefix_rfl)))
  | workplace inside =>
      obtain ⟨workplace, isWorkplace, inside⟩ := inside
      rcases List.prefix_or_prefix_of_prefix isAbove inside with ⟨rest, rfl⟩ | isBelow
      · exact file?_above_workplace prepared prepared' wellFormed wellFormed' alike outside
          isWorkplace
      · exact FileTree.file?_congr (entry?_of_prepared prepared prepared' wellFormed wellFormed'
          alike outside ⟨workplace, isWorkplace, isBelow⟩)

/-- Once there are new directories, the workspaces are alike but for the names of these. -/
theorem alike_of_prepared
    : Alike (InStage source output (output.dropLast ++ [name']))
        (made.renamed (exchange output.dropLast name name')) made' := by
  have isRenaming : IsRenaming (exchange output.dropLast name name') :=
    isRenaming_swap (beside_concat output.dropLast name name') prepared.named prepared'.named
  have stands := FileTree.entry?_exchanged prepared.named prepared'.named made.tree
  refine ⟨?_, wellFormed.renamed isRenaming, wellFormed', fun place isFixed => ?_,
    fun place names isFixed => ?_⟩
  · exact prepared'.directory.trans (alike.directory.trans prepared.directory.symm)
  · rw [Workspace.renamed, stands]
    cases isFixed with
    | workplace inside =>
        exact entry?_of_prepared prepared prepared' wellFormed wellFormed' alike outside inside
    | fresh names => exact entry?_inFresh prepared prepared' names
    | parent => exact entry?_onWay prepared prepared' wellFormed wellFormed' List.prefix_rfl
  · rw [file?_of_prepared prepared prepared' wellFormed wellFormed' alike outside isFixed]
    exact FileTree.file?_congr (stands place).symm

end

-----------------------------------------------------------------------------------------
-- Writing a plan
-----------------------------------------------------------------------------------------

/-- No name that is drawn is that of the output directory itself. A new directory of that name could
not be put in the place of the old one, which is removed first.
-/
def Avoids (lottery : Lottery) (output : Location) : Prop :=
  ∀ name, IsDrawn lottery name → output.getLast? ≠ some name

theorem Avoids.of_within {lottery later : Lottery} (avoids : Avoids lottery output)
    (within : later.Within lottery)
    : Avoids later output :=
  fun name drawn => avoids name (drawn.of_within within)

theorem Avoids.ne_fresh {lottery : Lottery} (avoids : Avoids lottery output)
    (drawn : IsDrawn lottery name)
    : output ≠ output.dropLast ++ [name] := by
  intro same
  refine avoids name drawn ?_
  rw [same, List.getLast?_concat]

/-- An output directory whose name does not start like those that are drawn is avoided. -/
theorem avoids_of_name (lottery : Lottery)
    (name : ∀ name ∈ output.getLast?, ¬ freshStem.toList <+: name.toList)
    : Avoids lottery output := by
  rintro _ ⟨count, taken, rfl⟩ isLast
  refine name _ isLast ?_
  rw [String.toList_append]
  exact List.prefix_append _ _

/-- A new directory can be made in both workspaces or in none. -/
theorem makeFreshIn_same (alike : Alike (InWorkplace source output) first second)
    (named : output.Named)
    : Outcome.Related (fun _ _ => True)
        (outcome (makeFreshIn (PathText.parent (PathText.absolute output)) freshStem) first).1
        (outcome (makeFreshIn (PathText.parent (PathText.absolute output)) freshStem) second).1 := by
  have spells := PathText.spells_absolute named.dropLast
  have isAbove : InWorkplace source output (output.dropLast ++ output.drop output.dropLast.length) :=
    ⟨output, .output, by rw [List.prefix_iff_eq_append.1 (List.dropLast_prefix output)]⟩
  obtain ⟨same, _⟩ := runsAlike_makeDirectories spells isAbove first second alike
  have fresh {before middle : Workspace}
      (made : outcome (Disk.makeDirectories (PathText.absolute output.dropLast)) before
        = (.ok (), middle))
      : ∃ path, (outcome (Disk.makeFresh (PathText.append (PathText.absolute output.dropLast)
          freshStem)) middle).1 = .ok path := by
    obtain ⟨tree, rfl, _, folder, _⟩ := makeDirectories_eq_ok spells made
    have ran := (outcome_makeFresh named.dropLast isName_freshStem { before with tree }).2.2
    rw [FileTree.checkDirectory_eq_ok_iff.2 folder] at ran
    exact ⟨_, congrArg Prod.fst ran⟩
  rw [(PathText.spells_absolute named).parent_eq, makeFreshIn, outcome_bind, outcome_bind]
  rcases made : outcome (Disk.makeDirectories (PathText.absolute output.dropLast)) first
    with ⟨fault | _, middle⟩ <;>
    rcases made' : outcome (Disk.makeDirectories (PathText.absolute output.dropLast)) second
      with ⟨fault' | _, middle'⟩ <;>
    rw [made, made'] at same <;>
    cases same
  · exact .error fault
  · obtain ⟨path, ran⟩ := fresh made
    obtain ⟨path', ran'⟩ := fresh made'
    simp only [ran, ran']
    exact .ok trivial

section

variable (alike : Alike (InWorkplace source output) first second) (named : output.Named)
  (named' : source.Named) (stays : plan.StaysBelow)
  (isSource : plan.sourceDir = PathText.absolute source)

include alike named stays

/-- Where writing fails in both workspaces, the output directory is as before. -/
theorem file?_of_unwritten {after' : Workspace} {cause cause' : Failure}
    (h : outcome (writeOutput (PathText.absolute output) plan) first = (.error cause, after))
    (h' : outcome (writeOutput (PathText.absolute output) plan) second = (.error cause', after'))
    (names : Location)
    : after'.tree.file? (output ++ names) = after.tree.file? (output ++ names) := by
  obtain ⟨_, adds⟩ := addsFolders_of_writeOutput alike.wellFormed named stays h
  obtain ⟨_, adds'⟩ := addsFolders_of_writeOutput alike.wellFormed' named stays h'
  rw [adds.file?_eq, adds'.file?_eq]
  exact FileTree.file?_congr (alike.agree.entry? _ (IsWorkplace.output.inside names))

variable (folder : first.tree.entry? source = some .directory)
  (copied : ∀ file ∈ plan.copied, (first.tree.entry? (source ++ PathText.place file)).isSome)

include named' isSource folder copied

/-- Writing to new directories comes to the same but for their names. -/
theorem writeBy_same {made made' : Workspace}
    (prepared : Prepared output (output.dropLast ++ [name]) first made)
    (prepared' : Prepared output (output.dropLast ++ [name']) second made')
    (wellFormed : made.tree.WellFormed) (wellFormed' : made'.tree.WellFormed)
    (differ : output ≠ output.dropLast ++ [name]) (differ' : output ≠ output.dropLast ++ [name'])
    : let run := outcome (writeBy (PathText.absolute (output.dropLast ++ [name]))
        (PathText.absolute output) plan) made
      let run' := outcome (writeBy (PathText.absolute (output.dropLast ++ [name']))
        (PathText.absolute output) plan) made'
      Matched (SameFailure name name') run.1 run'.1
      ∧ Alike (InStage source output (output.dropLast ++ [name']))
          (run.2.renamed (exchange output.dropLast name name')) run'.2 := by
  -- What stands in the source directory stands in no new directory.
  have apart {place : Location} (inside : source <+: place) (stands : (first.tree.entry? place).isSome)
      : ¬ output.dropLast ++ [name] <+: place ∧ ¬ output.dropLast ++ [name'] <+: place := by
    refine ⟨?_, ?_⟩
    · rintro ⟨names, rfl⟩
      rw [prepared.missing] at stands
      cases stands
    · rintro ⟨names, rfl⟩
      rw [← alike.agree.entry? _ ⟨source, .source, inside⟩, prepared'.missing] at stands
      cases stands
  have outside (workplace : Location) (isWorkplace : IsWorkplace source output workplace)
      : ¬ output.dropLast ++ [name] <+: workplace
        ∧ ¬ output.dropLast ++ [name'] <+: workplace := by
    cases isWorkplace with
    | source => exact apart List.prefix_rfl (by simp [folder])
    | output => exact ⟨fun isBelow => differ (eq_fresh_of_isBelow isBelow),
        fun isBelow => differ' (eq_fresh_of_isBelow isBelow)⟩
  have alike' := alike_of_prepared prepared prepared' wellFormed wellFormed' alike outside
  have isName {name : String} (named : Location.Named (output.dropLast ++ [name])) : IsName name :=
    named name (by simp)
  have kept (file : String) (member : file ∈ plan.copied)
      : exchange output.dropLast name name' (source ++ PathText.place file)
        = source ++ PathText.place file := by
    obtain ⟨notFresh, notFresh'⟩ := apart (List.prefix_append _ _) (copied file member)
    exact swap_outside notFresh notFresh'
  obtain ⟨matched, renamed⟩ := runsRenamed_writeBy named (isName prepared.named)
    (isName prepared'.named) stays isSource named' kept differ differ' made
  obtain ⟨same, after⟩ := runsAlike_writeBy prepared'.named prepared'.beside stays isSource named'
    named _ _ alike'
  rw [← same] at matched
  rw [renamed] at after
  exact ⟨matched, after⟩

/-- Writing a plan comes to the same in both workspaces, but for the name of the new directory in the
message of a failure.
-/
theorem writeOutput_same (avoids : Avoids first.lottery output)
    (avoids' : Avoids second.lottery output)
    : let run := outcome (writeOutput (PathText.absolute output) plan) first
      let run' := outcome (writeOutput (PathText.absolute output) plan) second
      (∃ name name',
        IsDrawn first.lottery name
        ∧ IsDrawn second.lottery name'
        ∧ Matched (SameFailure name name') run.1 run'.1)
      ∧ ∀ names, run'.2.tree.file? (output ++ names) = run.2.tree.file? (output ++ names) := by
  have both := makeFreshIn_same alike named
  rcases madeFresh : outcome (makeFreshIn (PathText.parent (PathText.absolute output)) freshStem)
    first with ⟨result, made⟩
  rcases madeFresh' : outcome (makeFreshIn (PathText.parent (PathText.absolute output)) freshStem)
    second with ⟨result', made'⟩
  rcases ran : outcome (writeOutput (PathText.absolute output) plan) first with ⟨written, after⟩
  rcases ran' : outcome (writeOutput (PathText.absolute output) plan) second with ⟨written', after'⟩
  have failed := @file?_of_unwritten first second after source output plan alike named stays after'
  have run := ran
  have run' := ran'
  rw [madeFresh, madeFresh'] at both
  rw [writeOutput_eq, outcome_bind, outcome_adapt, madeFresh] at run
  rw [writeOutput_eq, outcome_bind, outcome_adapt, madeFresh'] at run'
  cases both with
  | error fault =>
      cases run
      cases run'
      exact ⟨⟨_, _, ⟨0, [], rfl⟩, ⟨0, [], rfl⟩, .error ⟨rfl, .same _⟩⟩, failed ran ran'⟩
  | ok _ =>
      obtain ⟨fresh, rfl, prepared, edited⟩ := edited_of_makeFreshIn alike.wellFormed named madeFresh
      obtain ⟨fresh', rfl, prepared', edited'⟩ :=
        edited_of_makeFreshIn alike.wellFormed' named madeFresh'
      obtain ⟨name, drawn, rfl⟩ := prepared.drawn
      obtain ⟨name', drawn', rfl⟩ := prepared'.drawn
      obtain ⟨matched, alike'⟩ := writeBy_same alike named named' stays isSource folder copied
        prepared prepared' (edited.edits.wellFormed alike.wellFormed)
        (edited'.edits.wellFormed alike.wellFormed') (avoids.ne_fresh drawn) (avoids'.ne_fresh drawn')
      replace run : outcome (writeBy _ _ plan) made = (written, after) := run
      replace run' : outcome (writeBy _ _ plan) made' = (written', after') := run'
      rw [run, run'] at matched alike'
      refine ⟨⟨name, name', drawn, drawn', matched⟩, fun names => ?_⟩
      cases matched with
      | error related => exact failed ran ran' names
      | ok _ =>
          obtain ⟨_, _, _, _, _, _, swapped⟩ :=
            swapped_of_writeOutput alike.wellFormed named stays ran
          have isRenaming := isRenaming_swap (beside_concat output.dropLast name name')
            prepared.named prepared'.named
          have same := FileTree.entry?_renamed isRenaming after.tree (output ++ names)
          rw [← exchange, exchange_output swapped.nonempty (avoids.ne_fresh drawn)
            (avoids'.ne_fresh drawn')] at same
          refine FileTree.file?_congr ?_
          rw [← same]
          exact alike'.agree.entry? _ (.workplace (IsWorkplace.output.inside names))

end

end Stencil.Generate
