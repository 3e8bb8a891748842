import Stencil.Proofs.Files.Glob.IgnoredFolders
import Stencil.Proofs.Generate.Contents

/-! What becomes of the files that a target is generated from. The output directory is replaced as a
whole, so an input is kept where it does not stand there. If the directory spells itself below the
source directory, then no templates are searched for in it, and no files to copy that spell their
names.
-/

namespace Stencil.Files.PathText

theorem dropCommon_append (origin names : Location)
    : dropCommon origin (origin ++ names) = ([], names) := by
  induction origin with
  | nil => cases names <;> rfl
  | cons name origin ih => rw [List.cons_append, dropCommon, if_pos rfl, ih]

/-- The path to a place below is made of the names that lead there. -/
theorem relative_append (origin names : Location)
    : relative origin (origin ++ names) = join names := by
  rw [relative, dropCommon_append]
  rfl

end Stencil.Files.PathText

namespace Stencil.Generate

open Stencil.Files
open Stencil.Config (isSuffix Naming)
open Stencil.Files.Glob (PlainNames SpellsNames folderPattern isLiteral_join
  planOf_templatePattern mem_negatives)

variable {before after : Workspace} {root : String} {config : Config} {target : Config.Target}
  {isDry : Bool} {log : List Log.Entry} {result : Result} {source : Location} {plan : Plan}

-----------------------------------------------------------------------------------------
-- Files below an output directory
-----------------------------------------------------------------------------------------

/-- Names that lead from a source directory to an output directory which searches leave out: the
path spells itself in a pattern, and does not look as if it led up.
-/
structure IsLeftOut (names : Location) : Prop where
  plain : PlainNames names
  inside : ¬ ['.', '.'] <+: (PathText.join names).toList

instance (names : Location) : Decidable (IsLeftOut names) :=
  decidable_of_iff
    (PlainNames names ∧ ¬ ['.', '.'] <+: (PathText.join names).toList)
    ⟨fun both => ⟨both.1, both.2⟩, fun isLeftOut => ⟨isLeftOut.plain, isLeftOut.inside⟩⟩

section

variable {names : Location} (named : (source ++ names).Named) (nonempty : names ≠ [])
  (isLeftOut : IsLeftOut names)

include named nonempty isLeftOut

/-- Packages and an output directory that is left out are ignored. -/
theorem ignoredPatterns_eq
    : ignoredPatterns (PathText.absolute source) (PathText.absolute (source ++ names))
      = ["**/node_modules/**", String.ofList (folderPattern (PathText.join names).toList)] := by
  have isBelow : (PathText.join names ≠ ""
      && !(['.', '.'].isPrefixOf (PathText.join names).toList)) = true := by
    rw [Bool.and_eq_true, decide_eq_true_eq, Bool.not_eq_true', ← Bool.not_eq_true,
      List.isPrefixOf_iff_prefix]
    exact ⟨PathText.join_ne_empty named.right nonempty, isLeftOut.inside⟩
  have pattern : PathText.join names ++ "/**"
      = String.ofList (folderPattern (PathText.join names).toList) := by
    rw [← String.toList_inj, String.toList_ofList, String.toList_append]
    rfl
  simp only [ignoredPatterns, (PathText.spells_absolute named.left).locate_eq,
    (PathText.spells_absolute named).locate_eq, PathText.relative_append]
  rw [if_pos isBelow, pattern]

theorem mem_ignoredPatterns
    : String.ofList (folderPattern (PathText.join names).toList)
      ∈ ignoredPatterns (PathText.absolute source) (PathText.absolute (source ++ names)) := by
  rw [ignoredPatterns_eq named nonempty isLeftOut]
  simp

/-- No template is found at or below an output directory that is left out. -/
theorem not_below_of_findTemplates {naming : Naming} {templates : List String}
    (wellFormed : before.tree.WellFormed) (accepted : isSuffix naming.suffix = true)
    (h : outcome (findTemplates naming (PathText.absolute source)
        (PathText.absolute (source ++ names))) before
      = (.ok templates, after))
    {template : String} (member : template ∈ templates)
    : ¬ names <+: PathText.place template := by
  obtain ⟨files, _, searched, h⟩ := bind_eq_ok.1 h
  cases h
  obtain ⟨plan, planned, _, found⟩ := sourceFiles_eq_ok named.left searched
  obtain ⟨word, isWord, pattern⟩ := exists_word accepted
  have planned' := planned
  rw [sourceQuery, pattern] at planned'
  obtain ⟨lookups, searches⟩ := planOf_templatePattern isWord planned'
  have ignored := mem_negatives (isLiteral_join named.right nonempty isLeftOut.plain) planned
    (by simp [searches]) (mem_ignoredPatterns named nonempty isLeftOut)
  obtain ⟨inFiles, _⟩ := List.mem_filter.1 (List.mem_mergeSort.1 member)
  have outside := (found template inFiles).not_below wellFormed lookups searches named.right
    nonempty isLeftOut.plain ignored
  rwa [String.ofList_toList] at outside

/-- No file to copy that spells its names is found at or below an output directory that is left out.
-/
theorem not_below_of_findStatics {naming : Naming} {files : List String}
    (h : outcome (findStatics naming target (PathText.absolute source)
        (PathText.absolute (source ++ names))) before
      = (.ok files, after))
    {file : String} (member : file ∈ files) (stays : ".." ∉ PathText.segments file)
    (spells : SpellsNames file)
    : ¬ names <+: PathText.place file := by
  obtain ⟨plan, planned, found⟩ := (findStatics_eq_ok named.left h).2 file member
  obtain ⟨group, inPlan, _⟩ := found.exists_group
  have ignored := mem_negatives (isLiteral_join named.right nonempty isLeftOut.plain) planned
    (List.ne_nil_of_mem inPlan) (mem_ignoredPatterns named nonempty isLeftOut)
  have outside := found.not_below_of_spellsNames named.right nonempty isLeftOut.plain ignored
  rw [String.ofList_toList] at outside
  exact outside spells stays

end

-----------------------------------------------------------------------------------------
-- Inputs
-----------------------------------------------------------------------------------------

/-- The place of a file that a target is generated from: a data file, a template, or a file that is
copied.
-/
inductive IsInput (root : String) (config : Config) (target : Config.Target)
    (workspace : Workspace)
    : Location → Prop
  | data {file : String} (member : file ∈ target.data)
    : IsInput root config target workspace (PathText.locate [] (PathText.resolve root file))
  | template {files : List String} {file : String}
    (found : files ∈ (outcome (findTemplates config.naming (target.sourceDir root)
      (target.outputDir root config.naming)) workspace).1.toOption)
    (member : file ∈ files)
    : IsInput root config target workspace
        (PathText.locate [] (PathText.append (target.sourceDir root) file))
  | copied {files : List String} {file : String}
    (found : files ∈ (outcome (findStatics config.naming target (target.sourceDir root)
      (target.outputDir root config.naming)) workspace).1.toOption)
    (member : file ∈ files)
    : IsInput root config target workspace
        (PathText.locate [] (PathText.append (target.sourceDir root) file))

/-- A path that stays below leads to its names in the source directory. -/
theorem locate_append_sourceDir {file : String} (stays : ".." ∉ PathText.segments file)
    : PathText.locate [] (PathText.append (target.sourceDir root) file)
      = sourceOf root target ++ PathText.place file := by
  have named : (sourceOf root target).Named := named_sourceOf
  have leads := PathText.spells_append named stays
  rw [absolute_sourceOf] at leads
  exact leads.locate_eq []

/-- The inputs of a target are as before. -/
def KeepsInputs (root : String) (config : Config) (target : Config.Target)
    (before after : Workspace)
    : Prop :=
  ∀ place, IsInput root config target before place →
    after.tree.file? place = before.tree.file? place

/-- The output directory of a target is apart from its inputs. It is not at or above the source
directory, searches leave it out where it is below, and neither data files nor files that are copied
by way of other texts than their names stand in it.
-/
structure OutputApart (root : String) (config : Config) (target : Config.Target)
    (workspace : Workspace)
    : Prop where
  source : ¬ outputOf root config target <+: sourceOf root target
  below : sourceOf root target <+: outputOf root config target →
    IsLeftOut ((outputOf root config target).drop (sourceOf root target).length)
  data : ∀ file ∈ target.data,
    ¬ outputOf root config target <+: PathText.locate [] (PathText.resolve root file)
  copied : ∀ files ∈ (outcome (findStatics config.naming target (target.sourceDir root)
      (target.outputDir root config.naming)) workspace).1.toOption,
    ∀ file ∈ files, ¬ SpellsNames file →
      ¬ outputOf root config target
        <+: PathText.locate [] (PathText.append (target.sourceDir root) file)

section

variable (apart : OutputApart root config target before)

include apart

/-- An output directory above a place in the source directory is left out there. -/
theorem OutputApart.exists_between {names : Location}
    (isBelow : outputOf root config target <+: sourceOf root target ++ names)
    : ∃ between,
        outputOf root config target = sourceOf root target ++ between
        ∧ between ≠ []
        ∧ IsLeftOut between
        ∧ between <+: names := by
  have comparable := List.prefix_or_prefix_of_prefix (List.prefix_append _ _) isBelow
  have isAbove : sourceOf root target <+: outputOf root config target :=
    comparable.resolve_right apart.source
  have isLeftOut := apart.below isAbove
  obtain ⟨between, whole⟩ := isAbove
  rw [← whole, List.drop_left] at isLeftOut
  rw [← whole] at isBelow
  refine ⟨between, whole.symm, ?_, isLeftOut, (List.prefix_append_right_inj _).1 isBelow⟩
  rintro rfl
  rw [List.append_nil] at whole
  exact apart.source (whole ▸ List.prefix_rfl)

/-- Where the output directory is apart from the inputs, no input stands in it. -/
theorem OutputApart.not_below (wellFormed : before.tree.WellFormed)
    (accepted : isSuffix config.naming.suffix = true)
    (statics : StaticsStayBelow root config target before)
    (folder : before.tree.entry? (sourceOf root target) = some .directory) {place : Location}
    (isInput : IsInput root config target before place)
    : ¬ outputOf root config target <+: place := by
  cases isInput with
  | data member => exact apart.data _ member
  | @template files file found member =>
      have found := (readsOnly_findTemplates _ _ _).eq_ok_of_mem found
      rw [← absolute_sourceOf, ← absolute_outputOf] at found
      obtain ⟨_, shown⟩ := findTemplates_eq_ok wellFormed named_sourceOf folder accepted found
      obtain ⟨_, _, _, isShown, _⟩ := shown file member
      rw [locate_append_sourceDir isShown.stays]
      intro isBelow
      obtain ⟨between, whole, nonempty, isLeftOut, inside⟩ := apart.exists_between isBelow
      rw [whole] at found
      exact not_below_of_findTemplates (whole ▸ named_outputOf) nonempty isLeftOut wellFormed
        accepted found member inside
  | @copied files file found member =>
      by_cases spells : SpellsNames file
      · have stays := statics files found file member
        have found := (readsOnly_findStatics _ _ _ _).eq_ok_of_mem found
        rw [← absolute_sourceOf, ← absolute_outputOf] at found
        rw [locate_append_sourceDir stays]
        intro isBelow
        obtain ⟨between, whole, nonempty, isLeftOut, inside⟩ := apart.exists_between isBelow
        rw [whole] at found
        exact not_below_of_findStatics (whole ▸ named_outputOf) nonempty isLeftOut found member
          stays spells inside
      · exact apart.copied _ found _ member spells

end

-----------------------------------------------------------------------------------------
-- What is lost
-----------------------------------------------------------------------------------------

/-- The files below a location all have the places of files of a plan. -/
def OnlyListed (plan : Plan) (location : Location) (tree : FileTree) : Prop :=
  ∀ names, tree.file? (location ++ names) ≠ none →
    (∃ rendered ∈ plan.rendered, names = PathText.place rendered.output)
    ∨ ∃ file ∈ plan.copied, names = PathText.place file

theorem OnlyListed.put {location names : Location} {content : Bytes} {tree tree' : FileTree}
    (h : OnlyListed plan location tree)
    (puts : PutsFile (location ++ names) content tree tree')
    (isListed : (∃ rendered ∈ plan.rendered, names = PathText.place rendered.output)
      ∨ ∃ file ∈ plan.copied, names = PathText.place file)
    : OnlyListed plan location tree' := by
  intro other stands
  rw [puts] at stands
  by_cases same : other = names
  · exact same ▸ isListed
  · rw [if_neg fun eq => same (List.append_cancel_left eq)] at stands
    exact h other stands

theorem onlyListed_of_writeFiles {fresh output : Location} {made written : Workspace}
    (prepared : Prepared output fresh before made) (stays : plan.StaysBelow)
    (isSource : plan.sourceDir = PathText.absolute source) (named : source.Named)
    (h : outcome (writeFiles (PathText.absolute fresh) plan) made = (.ok (), written))
    : OnlyListed plan fresh written.tree := by
  have start : OnlyListed plan fresh made.tree := by
    intro names stands
    exact absurd (prepared.file?_made names) stands
  obtain ⟨_, middle, rendered, copied⟩ := bind_eq_ok.1 h
  have half := forM_eq_ok (P := fun _ workspace => OnlyListed plan fresh workspace.tree)
    (fun passed item rest middle next all holds wrote => by
      have member : item ∈ plan.rendered := by simp [all]
      have spells := PathText.spells_append prepared.named (stays.rendered item member)
      exact holds.put (writeText_eq_ok spells wrote) (.inl ⟨item, member, rfl⟩)) start rendered
  exact forM_eq_ok (P := fun _ workspace => OnlyListed plan fresh workspace.tree)
    (fun passed item rest middle next all holds wrote => by
      have member : item ∈ plan.copied := by simp [all]
      have spells := PathText.spells_append prepared.named (stays.copied item member)
      have spells' := PathText.spells_append named (stays.copied item member)
      obtain ⟨_, _, puts⟩ := copyFile_eq_ok spells (isSource ▸ spells') wrote
      exact holds.put puts (.inr ⟨item, member, rfl⟩)) half copied

/-- After a plan has been written, nothing but its files stands in the output directory. -/
theorem onlyListed_of_writeOutput {output : Location} (wellFormed : before.tree.WellFormed)
    (named : output.Named) (stays : plan.StaysBelow)
    (isSource : plan.sourceDir = PathText.absolute source) (named' : source.Named)
    (h : outcome (writeOutput (PathText.absolute output) plan) before = (.ok (), after))
    : OnlyListed plan output after.tree := by
  obtain ⟨fresh, made, written, prepared, wrote, _, swapped⟩ :=
    swapped_of_writeOutput wellFormed named stays h
  intro names stands
  rw [FileTree.file?_congr (swapped.inside names)] at stands
  exact onlyListed_of_writeFiles prepared stays isSource named' wrote names stands

/-- Generating a target keeps its inputs if the run is dry or fails, and if the output directory is
apart from them. A run that succeeds leaves nothing in the output directory but the files that it
lists, so an input at any other place there is lost.
-/
theorem keepsInputs_of_generated {data : Plain} (accepted : Config.ofPlain data = .ok config)
    (wellFormed : before.tree.WellFormed) (statics : StaticsStayBelow root config target before)
    (h : generated root config isDry target log before = (result, after))
    : (isDry = true ∨ result.success = false ∨ OutputApart root config target before →
        KeepsInputs root config target before after)
      ∧ (isDry = false → result.success = true →
          ∀ names,
            (∀ file ∈ result.files, names ≠ PathText.place file.output) →
            (∀ file ∈ result.copied, names ≠ PathText.place file) →
            after.tree.file? (outputOf root config target ++ names) = none) := by
  have accepted := Config.isSuffix_of_ofPlain accepted
  cases targetRun_of_generated h with
  | unplanned failure => exact ⟨fun _ _ _ => rfl, fun _ success => by cases success⟩
  | dry planned => exact ⟨fun _ _ _ => rfl, fun isReal => by cases isReal⟩
  | unwritten planned failed =>
      rw [← absolute_outputOf] at failed
      obtain ⟨_, adds⟩ := addsFolders_of_writeOutput wellFormed named_outputOf
        (planned.staysBelow wellFormed accepted statics) failed
      exact ⟨fun _ place _ => adds.file?_eq place, fun _ success => by cases success⟩
  | @written plan _ planned wrote =>
      rw [← absolute_outputOf] at wrote
      have stays := planned.staysBelow wellFormed accepted statics
      refine ⟨fun reason place isInput => ?_, fun _ _ names notRendered notCopied => ?_⟩
      · have apart : OutputApart root config target before := by
          rcases reason with isDry | failed | apart
          · cases isDry
          · cases failed
          · exact apart
        have folder := (Workspace.find_eq_directory_iff
          (PathText.spells_absolute named_sourceOf)).1 (planned.sourceDir_eq ▸ planned.folder)
        exact file?_of_writeOutput wellFormed named_outputOf stays wrote
          (apart.not_below wellFormed accepted statics folder isInput)
      · by_contra stands
        have only := onlyListed_of_writeOutput wellFormed named_outputOf stays
          planned.sourceDir_eq named_sourceOf wrote
        rcases only names stands with ⟨rendered, member, eq⟩ | ⟨file, member, eq⟩
        · exact notRendered rendered.file (List.mem_map_of_mem member) eq
        · exact notCopied file member eq

/-- A target for the sample that is generated into its source directory. -/
def inPlaceTarget : Config.Target := { sampleTarget "notes.txt" with output := some (some "paper") }

def inPlaceConfig : Config := { sampleConfig "notes.txt" with targets := [inPlaceTarget] }

def inPlaceData : Plain :=
  .record [("targets", .list [.record [("name", .text "paper"), ("source", .text "paper"),
    ("static", .list [.text "notes.txt"]), ("output", .text "paper")]])]

/-- The inputs of the sample are kept, unless it is generated into its source directory: then the
template is gone.
-/
theorem keepsInputs_of_generated_inPlace
    : KeepsInputs "/" (sampleConfig "notes.txt") (sampleTarget "notes.txt") samplePaper
        (generated "/" (sampleConfig "notes.txt") false (sampleTarget "notes.txt") []
          samplePaper).2
      ∧ (generated "/" inPlaceConfig false inPlaceTarget [] samplePaper).1.success = true
      ∧ ¬ KeepsInputs "/" inPlaceConfig inPlaceTarget samplePaper
          (generated "/" inPlaceConfig false inPlaceTarget [] samplePaper).2 := by
  have accepted : Config.ofPlain (sampleData "notes.txt") = .ok (sampleConfig "notes.txt") := rfl
  have accepted' : Config.ofPlain inPlaceData = .ok inPlaceConfig := rfl
  have statics : StaticsStayBelow "/" (sampleConfig "notes.txt") (sampleTarget "notes.txt")
      samplePaper := by decide +kernel
  have statics' : StaticsStayBelow "/" inPlaceConfig inPlaceTarget samplePaper := by decide +kernel
  have apart : OutputApart "/" (sampleConfig "notes.txt") (sampleTarget "notes.txt")
      samplePaper := by
    refine ⟨?_, fun _ => ?_, ?_, ?_⟩ <;> decide +kernel
  have result : (generated "/" inPlaceConfig false inPlaceTarget [] samplePaper).1
      = { target := "paper", success := true, outputDir := "/paper"
          files := [⟨"meta.tmp.typ", "meta.typ", 3⟩]
          copied := ["notes.txt"] } := by
    decide +kernel
  have lost := (keepsInputs_of_generated accepted' (by decide) statics' (Prod.eta _).symm).2 rfl
    (by rw [result]) ["meta.tmp.typ"] (by rw [result]; decide) (by rw [result]; decide)
  refine ⟨?_, by rw [result], fun keeps => ?_⟩
  · exact (keepsInputs_of_generated accepted (by decide) statics (Prod.eta _).symm).1
      (.inr (.inr apart))
  · have found : ["meta.tmp.typ"]
        ∈ (outcome (findTemplates inPlaceConfig.naming (inPlaceTarget.sourceDir "/")
          (inPlaceTarget.outputDir "/" inPlaceConfig.naming)) samplePaper).1.toOption := by
      decide +kernel
    have isInput : IsInput "/" inPlaceConfig inPlaceTarget samplePaper ["paper", "meta.tmp.typ"] :=
      .template found (List.mem_singleton_self "meta.tmp.typ")
    have kept := keeps _ isInput
    have place : outputOf "/" inPlaceConfig inPlaceTarget ++ ["meta.tmp.typ"]
        = ["paper", "meta.tmp.typ"] := by decide +kernel
    rw [place] at lost
    rw [lost] at kept
    exact absurd kept (by decide +kernel)

end Stencil.Generate
