import Stencil.Generate.Target
import Stencil.Proofs.Files.Staging

/-! Writing the files of a plan. If that fails, nothing but directories above the output directory
has been added; if it succeeds, the content of the output directory is what has been written.
-/

namespace Stencil.Generate

open Stencil.Files

variable {before after : Workspace} {output : Location} {plan : Plan}

/-- None of the files of a plan is written above the directory that they are written to. -/
structure Plan.StaysBelow (plan : Plan) : Prop where
  rendered : ∀ rendered ∈ plan.rendered, ".." ∉ PathText.segments rendered.output
  copied : ∀ file ∈ plan.copied, ".." ∉ PathText.segments file

/-- A name that a lottery gives to a new directory. -/
def IsDrawn (lottery : Lottery) (name : String) : Prop :=
  ∃ count taken, name = freshStem ++ lottery.draw count taken

theorem IsDrawn.of_within {lottery later : Lottery} {name : String} (drawn : IsDrawn later name)
    (within : later.Within lottery)
    : IsDrawn lottery name := by
  obtain ⟨count, taken, rfl⟩ := drawn
  obtain ⟨count', same⟩ := within count
  exact ⟨count', taken, by rw [same]⟩

/-- A new directory, with nothing in it and with a name that has been drawn, stands beside an output
directory.
-/
structure Prepared (output fresh : Location) (before after : Workspace) : Prop where
  named : fresh.Named
  nonempty : fresh ≠ []
  beside : fresh.dropLast = output.dropLast
  drawn : ∃ name, IsDrawn before.lottery name ∧ fresh = output.dropLast ++ [name]
  directory : after.directory = before.directory
  lottery : after.lottery = before.lottery.next
  stands : after.tree.entry? fresh = some .directory
  parent : after.tree.entry? fresh.dropLast = some .directory
  reaches : after.tree.Reaches fresh
  missing : ∀ names, before.tree.entry? (fresh ++ names) = none
  empty : ∀ names, names ≠ [] → after.tree.entry? (fresh ++ names) = none
  adds : ∀ place, place ≠ fresh →
    after.tree.entry? place = before.tree.entry? place
    ∨ before.tree.entry? place = none
      ∧ after.tree.entry? place = some .directory
      ∧ place <+: output.dropLast

theorem isName_freshStem : IsName freshStem := by
  constructor <;> decide

/-- A place in a directory is not at or above the directory. -/
theorem not_prefix_dropLast {location : Location} (nonempty : location ≠ []) (names : Location)
    : ¬ location ++ names <+: location.dropLast := by
  intro isAbove
  have shorter := isAbove.length_le
  have positive := List.length_pos_iff.2 nonempty
  rw [List.length_append, List.length_dropLast] at shorter
  omega

theorem prepared_of_makeFreshIn {path : String} (wellFormed : before.tree.WellFormed)
    (named : output.Named)
    (h : outcome (makeFreshIn (PathText.parent (PathText.absolute output)) freshStem) before
      = (.ok path, after))
    : ∃ fresh, path = PathText.absolute fresh ∧ Prepared output fresh before after := by
  obtain ⟨_, middle, made, h⟩ := bind_eq_ok.1 h
  rw [(PathText.spells_absolute named).parent_eq] at made h
  obtain ⟨tree, rfl, adds, parent, reaches⟩ :=
    makeDirectories_eq_ok (PathText.spells_absolute named.dropLast) made
  obtain ⟨taken, rfl, isName, free, rfl⟩ := makeFresh_eq_ok named.dropLast isName_freshStem h
  refine ⟨_, rfl, ?_⟩
  have drawn : IsDrawn before.lottery (freshStem ++ before.lottery.draw 0 taken) :=
    ⟨0, taken, rfl⟩
  dsimp only at isName free ⊢
  generalize freshStem ++ before.lottery.draw 0 taken = name at drawn isName free ⊢
  have nonempty : output.dropLast ++ [name] ≠ [] := by simp
  have above : (output.dropLast ++ [name]).dropLast = output.dropLast := by simp
  have missing : before.tree.entry? (output.dropLast ++ [name]) = none := by
    rcases adds (output.dropLast ++ [name]) with same | ⟨missing, _⟩
    · rw [← same, free]
    · exact missing
  refine ⟨?_, nonempty, above, ⟨name, drawn, rfl⟩, rfl, rfl, ?_, ?_, ?_, ?_, ?_, ?_⟩
  · exact named.dropLast.concat isName
  · simp [FileTree.entry?_put nonempty]
  · rw [above, FileTree.entry?_put nonempty, parent]
    simp
  · intro place isAbove
    rw [FileTree.entry?_put nonempty]
    split
    · rfl
    · rename_i differ
      exact reaches wellFormed place (by
        simpa [differ] using List.prefix_concat_iff.1 isAbove)
  · exact fun names => wellFormed.none_below missing
  · intro names below
    rw [FileTree.entry?_put nonempty, if_neg (by simpa using below)]
    rcases adds (output.dropLast ++ [name] ++ names) with same | ⟨_, _, isAbove⟩
    · rw [same, wellFormed.none_below missing]
    · rw [← above] at isAbove
      exact absurd (by simpa using isAbove) (not_prefix_dropLast nonempty names)
  · intro place differ
    rw [FileTree.entry?_put nonempty, if_neg differ]
    exact adds place

theorem Prepared.staged {fresh : Location} (h : Prepared output fresh before after)
    : Staged fresh after after :=
  ⟨rfl, fun _ _ => rfl, h.stands⟩

theorem Prepared.file?_made {fresh : Location} (h : Prepared output fresh before after)
    (names : Location)
    : after.tree.file? (fresh ++ names) = none := by
  by_cases here : names = []
  · rw [here, List.append_nil, FileTree.file?_eq_none_of_directory h.stands]
  · rw [FileTree.file?, h.empty names here]

/-- Writing the files of a plan changes nothing outside the directory that they are written to. -/
theorem keeps_writeFiles {fresh : Location} {before : Workspace} (named : fresh.Named)
    (reaches : before.tree.Reaches fresh) (stays : plan.StaysBelow)
    : Keeps (Staged fresh before) (writeFiles (PathText.absolute fresh) plan) := by
  refine (Keeps.forM fun rendered member => ?_).bind fun _ => Keeps.forM fun file member => ?_
  · exact keeps_writeText (PathText.spells_append named (stays.rendered rendered member)) reaches _
  · exact keeps_copyFile (PathText.spells_append named (stays.copied file member)) reaches _

-----------------------------------------------------------------------------------------
-- Outcomes of writing
-----------------------------------------------------------------------------------------

section

variable {fresh : Location} {made written : Workspace}
  (prepared : Prepared output fresh before made) (staged : Staged fresh made written)
  (wellFormed : before.tree.WellFormed)

include prepared staged

theorem Prepared.parent_staged : written.tree.entry? fresh.dropLast = some .directory := by
  rw [staged.outside, prepared.parent]
  simpa using not_prefix_dropLast prepared.nonempty []

/-- Outside the new directory there are the files of before. -/
theorem Prepared.entry?_staged {place : Location} (outside : ¬ fresh <+: place)
    : written.tree.entry? place = before.tree.entry? place
      ∨ before.tree.entry? place = none
        ∧ written.tree.entry? place = some .directory
        ∧ place <+: output.dropLast := by
  rw [staged.outside place outside]
  exact prepared.adds place fun same => outside (same ▸ List.prefix_rfl)

theorem Prepared.file?_staged {place : Location} (outside : ¬ fresh <+: place)
    : written.tree.file? place = before.tree.file? place := by
  rcases prepared.entry?_staged staged outside with same | ⟨missing, folder, _⟩
  · exact FileTree.file?_congr same
  · simp [FileTree.file?, missing, folder]

include wellFormed in
/-- Where there is no output directory there is nothing below it. -/
theorem Prepared.bare_staged (missing : written.tree.entry? output = none)
    : ∀ names, written.tree.entry? (output ++ names) = none := by
  intro names
  have nonempty : output ≠ [] := by
    rintro rfl
    cases missing
  have beside : Beside output fresh := ⟨nonempty, prepared.nonempty, prepared.beside.symm⟩
  have differ : output ≠ fresh := by
    rintro rfl
    rw [staged.stands] at missing
    cases missing
  have outside : ∀ names, ¬ fresh <+: output ++ names :=
    beside.symm.not_prefix_append (Ne.symm differ)
  have below : before.tree.entry? output = none := by
    rcases prepared.entry?_staged staged (by simpa using outside []) with same | ⟨none, _⟩
    · rw [← same, missing]
    · exact none
  rcases prepared.entry?_staged staged (outside names) with same | ⟨_, _, isAbove⟩
  · rw [same, wellFormed.none_below below]
  · exact absurd isAbove (not_prefix_dropLast nonempty names)

/-- Without the new directory nothing but directories above the output directory has been added. -/
theorem Prepared.addsFolders_of_cleared {after : Workspace} (cleared : Cleared fresh written after)
    : after.directory = before.directory
      ∧ FileTree.AddsFolders output.dropLast before.tree after.tree := by
  refine ⟨?_, fun place => ?_⟩
  · rw [cleared.directory, staged.directory, prepared.directory]
  · rw [cleared.entry?]
    split
    · rename_i isBelow
      obtain ⟨names, rfl⟩ := isBelow
      exact .inl (prepared.missing names).symm
    · rename_i outside
      exact prepared.entry?_staged staged outside

/-- A new directory that has been written to can be removed. -/
theorem Prepared.cleared_of_remove {result : Except Fault Unit} {after : Workspace}
    (h : outcome (Disk.remove (PathText.absolute fresh)) written = (result, after))
    : Cleared fresh written after := by
  have spells := PathText.spells_absolute prepared.named
  rw [remove_of_directory spells prepared.nonempty staged.stands] at h
  cases h
  refine (@Files.cleared_of_remove written _ _ _ spells (fun missing => ?_)
    (remove_of_directory spells prepared.nonempty staged.stands)).2
  rw [staged.stands] at missing
  cases missing

end

theorem addsFolders_of_makeFreshIn {fault : Fault} (named : output.Named)
    (h : outcome (makeFreshIn (PathText.parent (PathText.absolute output)) freshStem) before
      = (.error fault, after))
    : after.directory = before.directory
      ∧ FileTree.AddsFolders output.dropLast before.tree after.tree := by
  have spells := PathText.spells_absolute named.dropLast
  rw [(PathText.spells_absolute named).parent_eq] at h
  rcases bind_eq_error.1 h with failed | ⟨_, middle, made, h⟩
  · cases makeDirectories_eq_error spells failed
    exact ⟨rfl, .refl _ _⟩
  · cases makeFresh_eq_error named.dropLast isName_freshStem h
    obtain ⟨_, rfl, adds, _⟩ := makeDirectories_eq_ok spells made
    exact ⟨rfl, adds⟩

/-- Where writing fails, the new directory is there with some of its content, or is gone. -/
theorem staged_of_write_eq_error {fresh : Location} {made : Workspace} {fault : Fault}
    (prepared : Prepared output fresh before made) (wellFormed : before.tree.WellFormed)
    (named : output.Named) (stays : plan.StaysBelow)
    (h : outcome (do
        writeFiles (PathText.absolute fresh) plan
        replaceFolder (PathText.absolute fresh) (PathText.absolute output)) made
      = (.error fault, after))
    : Staged fresh made after
      ∨ ∃ written, Staged fresh made written ∧ Cleared fresh written after := by
  have keeps := keeps_writeFiles prepared.named prepared.reaches stays made prepared.staged
  rcases bind_eq_error.1 h with failed | ⟨_, written, wrote, h⟩
  · rw [failed] at keeps
    exact .inl keeps
  · rw [wrote] at keeps
    rcases replaceFolder_eq_error (PathText.spells_absolute prepared.named)
      (PathText.spells_absolute named) prepared.nonempty prepared.beside keeps.stands
      (prepared.parent_staged keeps) (prepared.bare_staged keeps wellFormed) h
      with rfl | ⟨rfl, cleared⟩
    · exact .inl keeps
    · exact .inr ⟨written, keeps, cleared⟩

/-- Writing a plan that fails adds nothing but directories above the output directory. -/
theorem addsFolders_of_writeOutput {cause : Failure} (wellFormed : before.tree.WellFormed)
    (named : output.Named) (stays : plan.StaysBelow)
    (h : outcome (writeOutput (PathText.absolute output) plan) before = (.error cause, after))
    : after.directory = before.directory
      ∧ FileTree.AddsFolders output.dropLast before.tree after.tree := by
  rcases bind_eq_error.1 h with failed | ⟨path, made, madeFresh, h⟩
  · obtain ⟨fault, failed, _⟩ := adapt_eq_error.1 failed
    exact addsFolders_of_makeFreshIn named failed
  obtain ⟨fresh, rfl, prepared⟩ :=
    prepared_of_makeFreshIn wellFormed named (adapt_eq_ok.1 madeFresh)
  rcases bind_eq_error.1 h with failed | ⟨result, left, attempted, h⟩
  · cases failed
  cases result with
  | ok _ => cases h
  | error fault =>
      have failed : outcome (do
          writeFiles (PathText.absolute fresh) plan
          replaceFolder (PathText.absolute fresh) (PathText.absolute output)) made
          = (.error fault, left) :=
        attempt_eq_ok.1 attempted
      have removed : ∃ result, outcome (Disk.remove (PathText.absolute fresh)) left
          = (result, after) := by
        rcases bind_eq_error.1 h with failed | ⟨_, _, removed, h⟩
        · obtain ⟨_, failed, _⟩ := adapt_eq_error.1 failed
          exact ⟨_, failed⟩
        · cases h
          exact ⟨_, adapt_eq_ok.1 removed⟩
      obtain ⟨result, removed⟩ := removed
      rcases staged_of_write_eq_error prepared wellFormed named stays failed
        with staged | ⟨written, staged, cleared⟩
      · exact prepared.addsFolders_of_cleared staged (prepared.cleared_of_remove staged removed)
      · refine prepared.addsFolders_of_cleared staged ?_
        -- The new directory was gone before, so it does not matter whether this removal fails.
        cases result with
        | error _ =>
            cases remove_eq_error removed
            exact cleared
        | ok _ =>
            have bare (names : Location) : left.tree.entry? (fresh ++ names) = none := by
              rw [cleared.entry?, if_pos (List.prefix_append _ _)]
            exact cleared.trans (cleared_of_remove
              (PathText.spells_absolute prepared.named) (fun _ => bare) removed).2

/-- A plan that has been written: from a new directory beside the output directory, which it has
taken the place of.
-/
structure Swapped (output fresh : Location) (written after : Workspace) : Prop where
  directory : after.directory = written.directory
  nonempty : output ≠ []
  differ : fresh ≠ output
  inside (names : Location) :
    after.tree.entry? (output ++ names) = written.tree.entry? (fresh ++ names)
  gone (names : Location) : after.tree.entry? (fresh ++ names) = none
  outside (place : Location) : ¬ output <+: place → ¬ fresh <+: place →
    after.tree.entry? place = written.tree.entry? place

theorem swapped_of_writeOutput (wellFormed : before.tree.WellFormed) (named : output.Named)
    (stays : plan.StaysBelow)
    (h : outcome (writeOutput (PathText.absolute output) plan) before = (.ok (), after))
    : ∃ fresh made written,
        Prepared output fresh before made
        ∧ outcome (writeFiles (PathText.absolute fresh) plan) made = (.ok (), written)
        ∧ Staged fresh made written
        ∧ Swapped output fresh written after := by
  obtain ⟨path, made, madeFresh, h⟩ := bind_eq_ok.1 h
  obtain ⟨fresh, rfl, prepared⟩ :=
    prepared_of_makeFreshIn wellFormed named (adapt_eq_ok.1 madeFresh)
  obtain ⟨result, left, attempted, h⟩ := bind_eq_ok.1 h
  cases result with
  | error fault =>
      obtain ⟨_, _, _, h⟩ := bind_eq_ok.1 h
      cases h
  | ok _ =>
      cases h
      have done : outcome (do
          writeFiles (PathText.absolute fresh) plan
          replaceFolder (PathText.absolute fresh) (PathText.absolute output)) made
          = (.ok (), after) :=
        attempt_eq_ok.1 attempted
      obtain ⟨_, written, wrote, swapped⟩ := bind_eq_ok.1 done
      have staged : Staged fresh made written := by
        have keeps := keeps_writeFiles prepared.named prepared.reaches stays made prepared.staged
        rwa [wrote] at keeps
      refine ⟨fresh, made, written, prepared, wrote, staged, ?_⟩
      obtain ⟨differ, middle, tree, cleared, moved, rfl⟩ :=
        replaceFolder_eq_ok (PathText.spells_absolute prepared.named)
          (PathText.spells_absolute named) prepared.nonempty prepared.beside staged.stands
          (prepared.parent_staged staged) (prepared.bare_staged staged wellFormed) swapped
      have beside : Beside fresh output :=
        ⟨prepared.nonempty, (FileTree.move_eq_ok moved).2.1, prepared.beside⟩
      have apart : ∀ names, ¬ output <+: fresh ++ names :=
        beside.symm.not_prefix_append (Ne.symm differ)
      have stands := FileTree.entry?_move moved fun names => by
        rw [cleared.entry?, if_pos (List.prefix_append _ _)]
      refine ⟨cleared.directory, (FileTree.move_eq_ok moved).2.1, differ, fun names => ?_,
        fun names => ?_, fun place out out' => ?_⟩
      · rw [stands, if_pos (List.prefix_append _ _), List.drop_left, cleared.entry?,
          if_neg (apart names)]
      · rw [stands, if_neg (apart names), if_pos (List.prefix_append _ _)]
      · rw [stands, if_neg out, if_neg out', cleared.entry?, if_neg out]

/-- Outside the output directory a plan that has been written leaves all files as they are. -/
theorem file?_of_writeOutput (wellFormed : before.tree.WellFormed) (named : output.Named)
    (stays : plan.StaysBelow)
    (h : outcome (writeOutput (PathText.absolute output) plan) before = (.ok (), after))
    {place : Location} (outside : ¬ output <+: place)
    : after.tree.file? place = before.tree.file? place := by
  obtain ⟨fresh, made, written, prepared, _, staged, swapped⟩ :=
    swapped_of_writeOutput wellFormed named stays h
  by_cases inFresh : fresh <+: place
  · obtain ⟨names, rfl⟩ := inFresh
    rw [FileTree.file?, FileTree.file?, swapped.gone, prepared.missing]
  · rw [FileTree.file?_congr (swapped.outside place outside inFresh),
      prepared.file?_staged staged inFresh]

end Stencil.Generate
