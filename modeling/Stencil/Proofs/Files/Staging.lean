import Stencil.Proofs.Files.DiskRuns

/-! Writing to a new directory that then takes the place of another one. While files are written
nothing outside the new directory changes, and nothing that can fail comes after the other one has
been taken away.
-/

namespace Stencil.Files

variable {workspace before after : Workspace} {fresh : Location}

/-- A workspace in which at most the content of a directory is not as before. -/
structure Staged (fresh : Location) (before after : Workspace) : Prop where
  directory : after.directory = before.directory
  outside : FileTree.SameOutside fresh before.tree after.tree
  stands : after.tree.entry? fresh = some .directory

-----------------------------------------------------------------------------------------
-- Writing below a directory
-----------------------------------------------------------------------------------------

theorem Staged.reaches_of_reaches (staged : Staged fresh before workspace)
    (reaches : before.tree.Reaches fresh)
    : workspace.tree.Reaches fresh := by
  intro place isAbove
  by_cases isBelow : fresh <+: place
  · rw [isAbove.eq_of_length (Nat.le_antisymm isAbove.length_le isBelow.length_le), staged.stands]
    rfl
  · rw [staged.outside place isBelow]
    exact reaches place isAbove

section

variable {path : String} {names : Location} (reaches : before.tree.Reaches fresh)
  (spells : PathText.Spells path (fresh ++ names))

theorem Staged.writes {content : Bytes} (staged : Staged fresh before workspace)
    (writes : WritesFile (fresh ++ names) content workspace after)
    : Staged fresh before after := by
  refine ⟨writes.directory.trans staged.directory, fun place outside => ?_, ?_⟩
  · rw [writes.entry?, if_neg, staged.outside place outside]
    rintro rfl
    exact outside (List.prefix_append _ _)
  · rw [writes.entry?, if_neg, staged.stands]
    intro same
    exact writes.notDirectory (same ▸ staged.stands)

include spells

/-- Making the directories above a place in a staged directory adds directories in there only. -/
theorem keeps_makeParents (reaches : before.tree.Reaches fresh)
    : Keeps (Staged fresh before) (Disk.makeDirectories (PathText.parent path)) := by
  intro workspace staged
  rw [spells.parent_eq]
  have parent := PathText.spells_absolute spells.named.dropLast
  rcases made : outcome (Disk.makeDirectories (PathText.absolute (fresh ++ names).dropLast))
    workspace with ⟨fault | _, after⟩
  · cases makeDirectories_eq_error parent made
    exact staged
  · obtain ⟨tree, rfl, adds, _⟩ := makeDirectories_eq_ok parent made
    have kept {place : Location} (stands : (workspace.tree.entry? place).isSome)
        : tree.entry? place = workspace.tree.entry? place := by
      rcases adds place with same | ⟨missing, _, _⟩
      · exact same
      · rw [missing] at stands
        cases stands
    refine ⟨staged.directory, fun place outside => ?_, ?_⟩
    · rw [← staged.outside place outside]
      rcases adds place with same | ⟨_, _, isAbove⟩
      · exact same
      · have isAbove := isAbove.trans (List.dropLast_prefix _)
        have isAbove := List.prefix_or_prefix_of_prefix isAbove (List.prefix_append fresh names)
        exact kept (staged.reaches_of_reaches reaches place (isAbove.resolve_right outside))
    · rw [kept (by simp [staged.stands]), staged.stands]

theorem keeps_writeText (reaches : before.tree.Reaches fresh) (text : String)
    : Keeps (Staged fresh before) (writeText path text) := by
  refine (keeps_makeParents spells reaches).bind fun _ workspace staged => ?_
  rcases written : outcome (Disk.write path (Encoding.encode text)) workspace with ⟨_ | _, after⟩
  · cases change_eq_error written
    exact staged
  · exact staged.writes (write_eq_ok spells written)

theorem keeps_copyFile (reaches : before.tree.Reaches fresh) (source : String)
    : Keeps (Staged fresh before) (copyFile source path) := by
  refine (keeps_makeParents spells reaches).bind fun _ workspace staged => ?_
  rcases copied : outcome (Disk.copy source path) workspace with ⟨_ | _, after⟩
  · rcases copy_eq_error spells copied with rfl | ⟨notDirectory, rfl⟩
    · exact staged
    -- What a failed copy takes away stands in the place of the copy, below the location.
    refine ⟨staged.directory, fun place outside => ?_, ?_⟩
    · have below : ¬ fresh ++ names <+: place :=
        fun isBelow => outside ((List.prefix_append _ _).trans isBelow)
      rw [FileTree.entry?_remove, if_neg below, ← staged.outside place outside]
      split
      · rename_i atTop
        rw [atTop, FileTree.entry?_nil]
      · rfl
    · have apart : ¬ fresh ++ names <+: fresh := by
        intro isAbove
        have same : fresh ++ names = fresh :=
          isAbove.eq_of_length (Nat.le_antisymm isAbove.length_le (by simp))
        exact notDirectory (by rw [same, staged.stands])
      rw [FileTree.entry?_remove, if_neg apart, staged.stands, ite_self]
  · obtain ⟨_, _, written⟩ := copy_eq_ok spells copied
    exact staged.writes written

end

-----------------------------------------------------------------------------------------
-- Taking the place of another directory
-----------------------------------------------------------------------------------------

/-- Two locations in one directory, neither of which is below the other if they differ. -/
structure Beside (first second : Location) : Prop where
  nonempty : first ≠ []
  nonempty' : second ≠ []
  parent : first.dropLast = second.dropLast

theorem Beside.symm {first second : Location} (h : Beside first second) : Beside second first :=
  ⟨h.nonempty', h.nonempty, h.parent.symm⟩

theorem Beside.length_eq {first second : Location} (h : Beside first second)
    : first.length = second.length := by
  have same := congrArg List.length h.parent
  have positive := List.length_pos_iff.2 h.nonempty
  have positive' := List.length_pos_iff.2 h.nonempty'
  simp only [List.length_dropLast] at same
  omega

theorem Beside.not_prefix_append {first second : Location} (h : Beside first second)
    (differ : first ≠ second) (names : Location)
    : ¬ first <+: second ++ names := by
  intro isAbove
  have isPrefix := List.prefix_of_prefix_length_le isAbove (List.prefix_append second names)
    (Nat.le_of_eq h.length_eq)
  exact differ (isPrefix.eq_of_length h.length_eq)

theorem Beside.not_prefix {first second : Location} (h : Beside first second)
    (differ : first ≠ second)
    : ¬ first <+: second := by
  simpa using h.not_prefix_append differ []

section

variable {source target : String} {output : Location} (spells : PathText.Spells source fresh)
  (spells' : PathText.Spells target output) (nonempty : fresh ≠ [])
  (beside : fresh.dropLast = output.dropLast)
  (stands : workspace.tree.entry? fresh = some .directory)
  (parent : workspace.tree.entry? fresh.dropLast = some .directory)

/-- The end of taking the place of a directory, after that has been removed. -/
def takePlace (source target : String) : ExceptT Fault (StateM Workspace) Unit := do
  Disk.makeDirectories (PathText.parent target)
  Disk.move source target

include spells spells' stands parent in
/-- Once the place is free, a directory beside it takes it. -/
theorem takePlace_of_free (beside : Beside fresh output) (differ : fresh ≠ output)
    (free : workspace.tree.entry? output = none)
    : ∃ tree,
        workspace.tree.move fresh output = .ok tree
        ∧ outcome (takePlace source target) workspace = (.ok (), { workspace with tree }) := by
  obtain ⟨tree, moved⟩ : ∃ tree, workspace.tree.move fresh output = .ok tree :=
    FileTree.exists_move (by simp [stands]) (by rwa [← beside.parent])
      (beside.not_prefix differ) free
  refine ⟨tree, moved, bind_eq_ok.2 ⟨(), workspace, ?_, ?_⟩⟩
  · rw [spells'.parent_eq, ← beside.parent]
    exact makeDirectories_of_directory (PathText.spells_absolute spells.named.dropLast) parent
  · refine change_eq_ok.2 ⟨tree, ?_, rfl⟩
    rwa [Workspace.checkWay_trimmed spells, Workspace.checkWay_trimmed spells',
      Workspace.locate_of_spells spells, Workspace.locate_of_spells spells']

/-- What has become of a workspace in which nothing stands at a location any more. -/
structure Cleared (location : Location) (before after : Workspace) : Prop where
  directory : after.directory = before.directory
  entry? (place : Location) : after.tree.entry? place
    = if location <+: place then none else before.tree.entry? place

theorem Cleared.trans {location : Location} {middle : Workspace}
    (h : Cleared location before middle) (h' : Cleared location middle after)
    : Cleared location before after := by
  refine ⟨h'.directory.trans h.directory, fun place => ?_⟩
  rw [h'.entry?, h.entry?]
  split <;> rfl

include spells spells' nonempty beside stands parent in
/-- Taking the place of a directory that can be removed succeeds, unless it is the new one. -/
theorem takePlace_of_cleared {middle : Workspace} (cleared : Cleared output workspace middle)
    (nonempty' : output ≠ []) (differ : fresh ≠ output)
    : ∃ tree,
        middle.tree.move fresh output = .ok tree
        ∧ outcome (takePlace source target) middle = (.ok (), { middle with tree }) := by
  have beside : Beside fresh output := ⟨nonempty, nonempty', beside⟩
  have outside : ¬ output <+: fresh := beside.symm.not_prefix (Ne.symm differ)
  have outside' : ¬ output <+: fresh.dropLast :=
    fun isAbove => outside (isAbove.trans (List.dropLast_prefix _))
  refine takePlace_of_free spells spells' ?_ ?_ beside differ ?_
  · rw [cleared.entry?, if_neg outside, stands]
  · rw [cleared.entry?, if_neg outside', parent]
  · rw [cleared.entry?, if_pos List.prefix_rfl]

include spells spells' nonempty beside parent in
/-- A directory cannot take its own place after it has been removed. -/
theorem takePlace_self {middle : Workspace} (cleared : Cleared output workspace middle)
    (same : fresh = output)
    : ∃ fault, outcome (takePlace source target) middle = (.error fault, middle) := by
  have outside : ¬ output <+: fresh.dropLast := by
    intro isAbove
    have shorter := isAbove.length_le
    rw [← same, List.length_dropLast] at shorter
    have positive := List.length_pos_iff.2 nonempty
    omega
  have parent' : middle.tree.entry? fresh.dropLast = some .directory := by
    rw [cleared.entry?, if_neg outside, parent]
  have made : outcome (Disk.makeDirectories (PathText.parent target)) middle
      = (.ok (), middle) := by
    rw [spells'.parent_eq, ← beside]
    exact makeDirectories_of_directory (PathText.spells_absolute spells.named.dropLast) parent'
  have missing : middle.tree.entry? fresh = none := by
    rw [cleared.entry?, if_pos (same ▸ List.prefix_rfl)]
  rcases moved : outcome (Disk.move source target) middle with ⟨fault | _, after⟩
  · cases change_eq_error moved
    exact ⟨fault, bind_eq_error.2 (.inr ⟨(), middle, made, moved⟩)⟩
  · obtain ⟨tree, moved, _⟩ := move_eq_ok spells' spells moved
    simp [FileTree.move, FileTree.find, missing] at moved

variable (bare : workspace.tree.entry? output = none
  → ∀ names, workspace.tree.entry? (output ++ names) = none)

include spells' bare in
theorem cleared_of_remove (h : outcome (Disk.remove target) workspace = (.ok (), after))
    : output ≠ [] ∧ Cleared output workspace after := by
  rcases remove_eq_ok spells' h with ⟨missing, rfl⟩ | ⟨nonempty', rfl⟩
  · refine ⟨?_, rfl, fun place => ?_⟩
    · rintro rfl
      cases missing
    · split
      · rename_i isBelow
        obtain ⟨names, rfl⟩ := isBelow
        exact bare missing names
      · rfl
  · refine ⟨nonempty', rfl, fun place => ?_⟩
    rw [FileTree.entry?_remove]
    by_cases atTop : place = []
    · simp [atTop, nonempty']
    · rw [if_neg atTop]

include spells spells' nonempty beside stands parent bare

/-- A directory that has taken the place of another one, which had been removed. -/
theorem replaceFolder_eq_ok
    (h : outcome (replaceFolder source target) workspace = (.ok (), after))
    : fresh ≠ output
      ∧ ∃ middle tree,
          Cleared output workspace middle
          ∧ middle.tree.move fresh output = .ok tree
          ∧ after = { middle with tree } := by
  obtain ⟨_, middle, removed, h⟩ := bind_eq_ok.1 h
  obtain ⟨nonempty', cleared⟩ := cleared_of_remove spells' bare removed
  have h : outcome (takePlace source target) middle = (.ok (), after) := h
  have differ : fresh ≠ output := by
    intro same
    obtain ⟨fault, failed⟩ := takePlace_self spells spells' nonempty beside parent cleared same
    rw [failed] at h
    cases h
  obtain ⟨tree, moved, done⟩ :=
    takePlace_of_cleared spells spells' nonempty beside stands parent cleared nonempty' differ
  rw [done] at h
  cases h
  exact ⟨differ, middle, tree, cleared, moved, rfl⟩

/-- Where taking the place of a directory fails that directory is still there, unless it is the new
one.
-/
theorem replaceFolder_eq_error {fault : Fault}
    (h : outcome (replaceFolder source target) workspace = (.error fault, after))
    : after = workspace ∨ fresh = output ∧ Cleared output workspace after := by
  rcases bind_eq_error.1 h with failed | ⟨_, middle, removed, h⟩
  · exact .inl (remove_eq_error failed)
  obtain ⟨nonempty', cleared⟩ := cleared_of_remove spells' bare removed
  have h : outcome (takePlace source target) middle = (.error fault, after) := h
  by_cases same : fresh = output
  · obtain ⟨fault, failed⟩ := takePlace_self spells spells' nonempty beside parent cleared same
    rw [failed] at h
    cases h
    exact .inr ⟨same, cleared⟩
  · obtain ⟨tree, moved, done⟩ :=
      takePlace_of_cleared spells spells' nonempty beside stands parent cleared nonempty' same
    rw [done] at h
    cases h

end

end Stencil.Files
