import Stencil.Proofs.Files.Contents
import Stencil.Proofs.Generate.TargetRuns

/-! What an output directory holds after a target has been written. Each file that is written adds
its content to the new directory, which in the end holds the files of the plan and nothing else.
-/

namespace Stencil.Generate

open Stencil.Files

variable {before made written after : Workspace} {root : String} {config : Config}
  {target : Config.Target} {plan : Plan} {fresh output source : Location}

/-- The files that a plan is for: the rendered texts, and the files of the source directory that are
copied.
-/
def Plan.Files (plan : Plan) (source : Location) (tree : FileTree) (names : Location)
    (content : Bytes)
    : Prop :=
  (∃ rendered ∈ plan.rendered,
    names = PathText.place rendered.output ∧ content = Encoding.encode rendered.text)
  ∨ ∃ file ∈ plan.copied,
      names = PathText.place file ∧ tree.file? (source ++ names) = some content

/-- No two files of a plan have the same place, unless both are copies of one file. -/
structure Plan.Apart (plan : Plan) : Prop where
  rendered : ∀ first ∈ plan.rendered, ∀ second ∈ plan.rendered,
    PathText.place first.output = PathText.place second.output → first = second
  copied : ∀ file ∈ plan.copied, ∀ rendered ∈ plan.rendered,
    PathText.place file ≠ PathText.place rendered.output

/-- A plan of which some rendered files and some copied files have been written. -/
structure Writing (plan : Plan) (source fresh : Location) (before made : Workspace)
    (rendered : List Rendered) (copied : List String) (workspace : Workspace) : Prop where
  staged : Staged fresh made workspace
  holds : Holds fresh (Plan.Files ⟨plan.sourceDir, rendered, copied⟩ source before.tree)
    workspace.tree

section

variable (prepared : Prepared output fresh before made) (stays : plan.StaysBelow)
  (apart : plan.Apart)

include prepared

theorem Writing.start : Writing plan source fresh before made [] [] made := by
  refine ⟨prepared.staged, fun names content => ?_⟩
  simp [prepared.file?_made names, Plan.Files]

include stays apart in
theorem Writing.render {passed rest : List Rendered} {rendered : Rendered} {middle next : Workspace}
    (all : plan.rendered = passed ++ rendered :: rest)
    (h : Writing plan source fresh before made passed [] middle)
    (wrote : outcome (writeText (PathText.append (PathText.absolute fresh) rendered.output)
      rendered.text) middle = (.ok (), next))
    : Writing plan source fresh before made (passed ++ [rendered]) [] next := by
  have member : rendered ∈ plan.rendered := by simp [all]
  have spells := PathText.spells_append prepared.named (stays.rendered rendered member)
  have staged := keeps_writeText spells prepared.reaches rendered.text middle h.staged
  rw [wrote] at staged
  refine ⟨staged, (h.holds.put (writeText_eq_ok spells wrote) ?_).congr fun names content => ?_⟩
  · rintro content (⟨other, isPassed, same, rfl⟩ | ⟨_, none, _⟩)
    · have isOther : other ∈ plan.rendered := all ▸ List.mem_append_left _ isPassed
      rw [apart.rendered rendered member other isOther same]
    · exact absurd none List.not_mem_nil
  · simp [Plan.Files, or_and_right, exists_or]

variable (isSource : plan.sourceDir = PathText.absolute source) (named : source.Named)
  (sources : ∀ file ∈ plan.copied, ∃ content,
    before.tree.file? (source ++ PathText.place file) = some content)

include stays apart isSource named sources in
theorem Writing.copy {passed rest : List String} {file : String} {middle next : Workspace}
    (all : plan.copied = passed ++ file :: rest)
    (h : Writing plan source fresh before made plan.rendered passed middle)
    (wrote : outcome (copyFile (PathText.append plan.sourceDir file)
      (PathText.append (PathText.absolute fresh) file)) middle = (.ok (), next))
    : Writing plan source fresh before made plan.rendered (passed ++ [file]) next := by
  have member : file ∈ plan.copied := by simp [all]
  have spells := PathText.spells_append prepared.named (stays.copied file member)
  have staged := keeps_copyFile spells prepared.reaches (PathText.append plan.sourceDir file)
    middle h.staged
  rw [wrote] at staged
  obtain ⟨content, stands⟩ := sources file member
  -- The file that is copied was there before the new directory, so it is not one of those written.
  have outside : ¬ fresh <+: source ++ PathText.place file := by
    rintro ⟨names, eq⟩
    rw [← eq, FileTree.file?, prepared.missing] at stands
    cases stands
  rw [isSource] at wrote
  obtain ⟨content', found, puts⟩ :=
    copyFile_eq_ok spells (PathText.spells_append named (stays.copied file member)) wrote
  rw [prepared.file?_staged h.staged outside, stands] at found
  obtain rfl : content = content' := Option.some.inj found
  refine ⟨staged, (h.holds.put puts ?_).congr fun names content' => ?_⟩
  · rintro content' (⟨rendered, isRendered, same, _⟩ | ⟨_, _, _, stands'⟩)
    · exact absurd same (apart.copied file member rendered isRendered)
    · rw [stands] at stands'
      exact (Option.some.inj stands').symm
  · have here : names = PathText.place file ∧ content' = content
        ↔ names = PathText.place file
          ∧ before.tree.file? (source ++ names) = some content' := by
      refine and_congr_right fun same => ?_
      rw [same, stands, Option.some.injEq, eq_comm]
    simp [Plan.Files, here, or_and_right, exists_or, or_assoc]

include stays apart isSource named sources in
theorem writing_of_writeFiles
    (h : outcome (writeFiles (PathText.absolute fresh) plan) made = (.ok (), written))
    : Writing plan source fresh before made plan.rendered plan.copied written := by
  obtain ⟨_, middle, rendered, copied⟩ := bind_eq_ok.1 h
  have half := forM_eq_ok (P := fun passed => Writing plan source fresh before made passed [])
    (fun passed item rest middle next all holds wrote =>
      holds.render prepared stays apart all wrote) (.start prepared) rendered
  exact forM_eq_ok (P := Writing plan source fresh before made plan.rendered)
    (fun passed item rest middle next all holds wrote =>
      holds.copy prepared stays apart isSource named sources all wrote) half copied

end

/-- After a plan has been written the output directory holds the files of the plan. -/
theorem holds_of_writeOutput (wellFormed : before.tree.WellFormed) (named : output.Named)
    (stays : plan.StaysBelow) (apart : plan.Apart)
    (isSource : plan.sourceDir = PathText.absolute source) (named' : source.Named)
    (sources : ∀ file ∈ plan.copied, ∃ content,
      before.tree.file? (source ++ PathText.place file) = some content)
    (h : outcome (writeOutput (PathText.absolute output) plan) before = (.ok (), after))
    : Holds output (plan.Files source before.tree) after.tree := by
  obtain ⟨fresh, made, written, prepared, wrote, _, swapped⟩ :=
    swapped_of_writeOutput wellFormed named stays h
  have writing := writing_of_writeFiles prepared stays apart isSource named' sources wrote
  intro names content
  rw [FileTree.file?_congr (swapped.inside names)]
  exact writing.holds names content

-----------------------------------------------------------------------------------------
-- The files of a result
-----------------------------------------------------------------------------------------

/-- An output directory holds the files that a result lists, each once, and no others. -/
structure HoldsListed (config : Config) (context : Context) (source output : Location)
    (before after : FileTree) (result : Result) : Prop where
  rendered : ∀ file ∈ result.files, ∃ text,
    Renders config.maxSteps context before (source ++ PathText.place file.template) text
    ∧ after.file? (output ++ PathText.place file.output) = some (Encoding.encode text)
  copied : ∀ file ∈ result.copied, ∃ content,
    before.file? (source ++ PathText.place file) = some content
    ∧ after.file? (output ++ PathText.place file) = some content
  listed : ∀ names, (after.file? (output ++ names)).isSome →
    (∃ file ∈ result.files, names = PathText.place file.output)
    ∨ ∃ file ∈ result.copied, names = PathText.place file
  distinct : (result.files.map GeneratedFile.output ++ result.copied).Nodup

theorem nodup_output (isPlanned : Planned root config target before plan)
    (different : ∀ first ∈ plan.rendered, ∀ second ∈ plan.rendered,
      PathText.place first.output = PathText.place second.output → first = second)
    (nodup : (plan.rendered.map Rendered.template).Nodup)
    : (plan.rendered.map Rendered.output ++ plan.copied).Nodup := by
  rw [List.nodup_append]
  refine ⟨?_, isPlanned.nodup_copied, ?_⟩
  · refine (List.nodup_map_iff_inj_on nodup.of_map).2 fun first isFirst second isSecond same => ?_
    exact different first isFirst second isSecond (congrArg _ same)
  · intro output member file isCopied same
    obtain ⟨rendered, isRendered, rfl⟩ := List.mem_map.1 member
    exact isPlanned.apart file isCopied rendered isRendered same

/-- A target that succeeds leaves its output directory with the files that the result lists: the
templates rendered against the data, and copies of files of the source directory. No copied file may
have the place of a rendered one.
-/
theorem holdsListed_of_generated {data : Plain} {log : List Log.Entry} {result : Result}
    (accepted : Config.ofPlain data = .ok config) (wellFormed : before.tree.WellFormed)
    (h : generated root config false target log before = (result, after))
    (success : result.success = true)
    (statics : ∀ file ∈ result.copied,
      PathText.isAbsolute file = false
      ∧ ".." ∉ PathText.segments file
      ∧ ∀ other ∈ result.files, PathText.place file ≠ PathText.place other.output)
    : ∃ context,
        LoadsData root target before context
        ∧ HoldsListed config context (sourceOf root target) (outputOf root config target)
            before.tree after.tree result := by
  have accepted := Config.isSuffix_of_ofPlain accepted
  cases targetRun_of_generated h with
  | unplanned failure => cases success
  | unwritten planned failed => cases success
  | @written plan _ planned wrote =>
      obtain ⟨nodup, context, loads, isRendered⟩ := planned.isRendered wellFormed accepted
      have different : ∀ first ∈ plan.rendered, ∀ second ∈ plan.rendered,
          PathText.place first.output = PathText.place second.output → first = second :=
        fun first isFirst second isSecond => output_injective nodup isRendered isFirst isSecond
      have sources : ∀ file ∈ plan.copied, ∃ content,
          before.tree.file? (sourceOf root target ++ PathText.place file) = some content :=
        fun file member => planned.exists_copied wellFormed member (statics file member).1
          (statics file member).2.1
      have stays : plan.StaysBelow :=
        ⟨fun rendered member => (isRendered rendered member).output.stays,
          fun file member => (statics file member).2.1⟩
      have apart : plan.Apart :=
        ⟨different, fun file member rendered isRendered =>
          (statics file member).2.2 rendered.file (List.mem_map_of_mem isRendered)⟩
      rw [← absolute_outputOf] at wrote
      have holds := holds_of_writeOutput wellFormed named_outputOf stays apart
        planned.sourceDir_eq named_sourceOf sources wrote
      refine ⟨context, loads, ⟨?_, ?_, ?_, ?_⟩⟩
      · intro file member
        obtain ⟨rendered, isIn, rfl⟩ := List.mem_map.1 member
        exact ⟨rendered.text, (isRendered rendered isIn).renders,
          (holds _ _).2 (.inl ⟨rendered, isIn, rfl, rfl⟩)⟩
      · intro file member
        obtain ⟨content, stands⟩ := sources file member
        exact ⟨content, stands, (holds _ _).2 (.inr ⟨file, member, rfl, stands⟩)⟩
      · intro names stands
        obtain ⟨content, stands⟩ := Option.isSome_iff_exists.1 stands
        rcases (holds names content).1 stands with ⟨rendered, isIn, same, _⟩ | ⟨file, isIn, same, _⟩
        · exact .inl ⟨rendered.file, List.mem_map_of_mem isIn, same⟩
        · exact .inr ⟨file, isIn, same⟩
      · have outputs : (plan.rendered.map Rendered.file).map GeneratedFile.output
            = plan.rendered.map Rendered.output := by
          rw [List.map_map]
          rfl
        rw [resultOf, outputs]
        exact nodup_output planned different nodup

/-- The sample is rendered to one file, and another one is copied. -/
theorem holdsListed_of_generated_notes
    : (generated "/" (sampleConfig "notes.txt") false (sampleTarget "notes.txt") []
        samplePaper).1.copied = ["notes.txt"]
      ∧ ∃ context,
          LoadsData "/" (sampleTarget "notes.txt") samplePaper context
          ∧ HoldsListed (sampleConfig "notes.txt") context (sourceOf "/" (sampleTarget "notes.txt"))
              (outputOf "/" (sampleConfig "notes.txt") (sampleTarget "notes.txt"))
              samplePaper.tree
              (generated "/" (sampleConfig "notes.txt") false (sampleTarget "notes.txt") []
                samplePaper).2.tree
              (generated "/" (sampleConfig "notes.txt") false (sampleTarget "notes.txt") []
                samplePaper).1 := by
  have accepted : Config.ofPlain (sampleData "notes.txt") = .ok (sampleConfig "notes.txt") := rfl
  have result : (generated "/" (sampleConfig "notes.txt") false (sampleTarget "notes.txt") []
      samplePaper).1
      = { target := "paper", success := true, outputDir := "/paper/_generated"
          files := [⟨"meta.tmp.typ", "meta.typ", 3⟩]
          copied := ["notes.txt"] } := by
    decide +kernel
  refine ⟨by rw [result], holdsListed_of_generated accepted (by decide) (Prod.eta _).symm ?_ ?_⟩
  · rw [result]
  · rw [result]
    decide

end Stencil.Generate
