import Mathlib.Data.List.Nodup
import Stencil.Proofs.Generate.Plans
import Stencil.Proofs.Generate.Writing

/-! The files that a plan is made from. Each rendered file is what its template in the source
directory gives, each copied file is there as well, and no two rendered files go to one place.
-/

namespace Stencil.Generate

open Stencil.Files
open Stencil.Config (IsOutput IsShown isSuffix)

variable {workspace : Workspace} {root : String} {config : Config} {target : Config.Target}
  {plan : Plan} {source : Location}

/-- The location of the source directory of a target. -/
def sourceOf (root : String) (target : Config.Target) : Location :=
  PathText.locate [] (target.sourceDir root)

/-- The location of the output directory of a target. -/
def outputOf (root : String) (config : Config) (target : Config.Target) : Location :=
  PathText.locate [] (target.outputDir root config.naming)

theorem named_outputOf : (outputOf root config target).Named :=
  PathText.named_locate PathText.named_nil _

theorem named_sourceOf : (sourceOf root target).Named :=
  PathText.named_locate PathText.named_nil _

theorem absolute_locate_resolve (directory path : String)
    : PathText.absolute (PathText.locate [] (PathText.resolve directory path))
      = PathText.resolve directory path := by
  have named := PathText.named_locate (PathText.named_locate PathText.named_nil directory) path
  rw [PathText.resolve, (PathText.spells_absolute named).locate_eq]

theorem absolute_sourceOf : PathText.absolute (sourceOf root target) = target.sourceDir root := by
  rw [sourceOf, Config.Target.sourceDir, absolute_locate_resolve]

theorem absolute_outputOf
    : PathText.absolute (outputOf root config target) = target.outputDir root config.naming := by
  rw [outputOf, Config.Target.outputDir]
  split <;> rw [absolute_locate_resolve]

-----------------------------------------------------------------------------------------
-- Rendered files
-----------------------------------------------------------------------------------------

/-- A text is what the template at a location gives. -/
def Renders (maxSteps : Nat) (context : Context) (tree : FileTree) (location : Location)
    (text : String)
    : Prop :=
  ∃ bytes,
    tree.file? location = some bytes
    ∧ renderText (Encoding.decode bytes) context maxSteps = .ok text

theorem renderFile_eq_ok {context : Context} {sourceDir template : String} {rendered : Rendered}
    (h : outcome (renderFile config context sourceDir template) workspace
      = (.ok rendered, workspace))
    : ∃ bytes text,
        rendered = ⟨template, (config.naming.outputName? template).getD template, text⟩
        ∧ workspace.find (PathText.append sourceDir template) = .ok (.file bytes)
        ∧ renderText (Encoding.decode bytes) context config.maxSteps = .ok text := by
  obtain ⟨text, middle, read, h⟩ := bind_eq_ok.1 h
  have read := adapt_eq_ok.1 read
  rw [readText, map_eq_pure_bind] at read
  obtain ⟨bytes, _, read, eq⟩ := bind_eq_ok.1 read
  cases eq
  have stands := read_eq_ok read
  split at h
  · cases h
  · rename_i text gives
    cases h
    exact ⟨bytes, text, rfl, stands, gives⟩

/-- A rendered file of a plan: the output of a template of the source directory. -/
structure IsRendered (config : Config) (context : Context) (tree : FileTree) (source : Location)
    (rendered : Rendered) : Prop where
  output : IsOutput config.naming rendered.template rendered.output
  renders : Renders config.maxSteps context tree (source ++ PathText.place rendered.template)
    rendered.text

/-- Different rendered files go to different places. -/
theorem output_injective {context : Context} {first second : Rendered}
    (nodup : (plan.rendered.map Rendered.template).Nodup)
    (isRendered : ∀ rendered ∈ plan.rendered,
      IsRendered config context workspace.tree (sourceOf root target) rendered)
    (isFirst : first ∈ plan.rendered) (isSecond : second ∈ plan.rendered)
    (same : PathText.place first.output = PathText.place second.output)
    : first = second := by
  have templates : first.template = second.template :=
    (isRendered first isFirst).output.template_eq (isRendered second isSecond).output same
  exact List.inj_on_of_nodup_map nodup isFirst isSecond templates

section

variable (planned : Planned root config target workspace plan)

include planned

theorem Planned.sourceDir_eq : plan.sourceDir = PathText.absolute (sourceOf root target) :=
  planned.sourceDir.trans absolute_sourceOf.symm

theorem Planned.entry?_source
    : workspace.tree.entry? (sourceOf root target) = some .directory :=
  (Workspace.find_eq_directory_iff (PathText.spells_absolute named_sourceOf)).1
    (planned.sourceDir_eq ▸ planned.folder)

/-- The rendered files of a plan are those of different templates. -/
theorem Planned.isRendered (wellFormed : workspace.tree.WellFormed)
    (accepted : isSuffix config.naming.suffix = true)
    : (plan.rendered.map Rendered.template).Nodup
      ∧ ∃ context,
          LoadsData root target workspace context
          ∧ ∀ rendered ∈ plan.rendered,
              IsRendered config context workspace.tree (sourceOf root target) rendered := by
  obtain ⟨context, templates, loads, found, each⟩ := planned.rendered
  rw [planned.sourceDir_eq] at found each
  obtain ⟨nodup, shown⟩ :=
    findTemplates_eq_ok wellFormed named_sourceOf planned.entry?_source accepted found
  have same : templates = plan.rendered.map Rendered.template := by
    rw [← List.forall₂_eq_eq_eq, List.forall₂_map_right_iff]
    refine each.imp fun template rendered found => ?_
    obtain ⟨_, _, rfl, _⟩ := renderFile_eq_ok found
    rfl
  refine ⟨same ▸ nodup, context, loads, fun rendered member => ?_⟩
  obtain ⟨template, isFound, found⟩ := mem_of_forall₂ each member
  obtain ⟨isTemplate, names, _, isShown, _⟩ := shown template isFound
  obtain ⟨output, isOutput⟩ := Option.isSome_iff_exists.1 isTemplate
  obtain ⟨bytes, text, rfl, stands, gives⟩ := renderFile_eq_ok found
  rw [isOutput, Option.getD_some]
  refine ⟨Config.isOutput_of_outputName? (Config.noSlash_of_isSuffix accepted) isShown isOutput,
    bytes, ?_, gives⟩
  exact Workspace.file?_of_find (PathText.spells_append named_sourceOf isShown.stays) stands

-----------------------------------------------------------------------------------------
-- Copied files
-----------------------------------------------------------------------------------------

theorem Planned.nodup_copied : plan.copied.Nodup := by
  have matched := planned.copied
  rw [planned.sourceDir_eq] at matched
  exact (findStatics_eq_ok named_sourceOf matched).1

/-- A copied file is a file of the source directory, if its path stays there. -/
theorem Planned.exists_copied (wellFormed : workspace.tree.WellFormed) {file : String}
    (member : file ∈ plan.copied) (isRelative : PathText.isAbsolute file = false)
    (stays : ".." ∉ PathText.segments file)
    : ∃ content,
        workspace.tree.file? (sourceOf root target ++ PathText.place file) = some content := by
  have matched := planned.copied
  rw [planned.sourceDir_eq] at matched
  obtain ⟨plan, _, found⟩ := (findStatics_eq_ok named_sourceOf matched).2 file member
  have leads := found.file? wellFormed named_sourceOf
  rw [String.ofList_toList] at leads
  exact leads isRelative stays

end

end Stencil.Generate
