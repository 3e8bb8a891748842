import Stencil.Proofs.Files.DiskRuns

/-! What the files below a location hold. Writing a file gives it its content and leaves all other
files as they are.
-/

namespace Stencil.Files

variable {workspace after : Workspace} {path : String} {location : Location}

/-- A file has been written, and all others are as before. -/
def PutsFile (location : Location) (content : Bytes) (before after : FileTree) : Prop :=
  ∀ place, after.file? place = if place = location then some content else before.file? place

theorem WritesFile.putsFile {content : Bytes} (h : WritesFile location content workspace after)
    : PutsFile location content workspace.tree after.tree := by
  intro place
  rw [FileTree.file?, h.entry?]
  by_cases same : place = location
  · simp [same]
  · simp [same, FileTree.file?]

/-- A file is written at a path that can be followed, and that does not end with a slash. -/
theorem Workspace.writeFile_inv {content : Bytes} {tree : FileTree}
    (h : workspace.writeFile path content = .ok tree)
    : path ≠ ""
      ∧ workspace.checkWay path = .ok ()
      ∧ workspace.tree.writeFile (workspace.locate path) content = .ok tree := by
  rw [writeFile] at h
  split at h
  · cases h
  rename_i nonempty
  obtain ⟨_, way, h⟩ := Outcome.bind_eq_ok_iff.1 h
  split at h
  · obtain ⟨_, _, refused⟩ := Outcome.bind_eq_ok_iff.1 h
    cases refused
  · rename_i noSlash
    rw [PathText.trimmed_eq_self nonempty (by simpa [endsWithSlash] using noSlash)] at way
    exact ⟨nonempty, way, h⟩

/-- A file that is written at a path is put where the path leads, and found there. -/
theorem Workspace.entry?_of_writeFile {content : Bytes} {tree : FileTree}
    (h : workspace.writeFile path content = .ok tree)
    : (∀ place, tree.entry? place
        = if place = workspace.locate path then some (.file content)
          else workspace.tree.entry? place)
      ∧ { workspace with tree }.find path = .ok (.file content) := by
  obtain ⟨nonempty, way, written⟩ := writeFile_inv h
  have entry := FileTree.entry?_writeFile written
  refine ⟨entry, ?_⟩
  have notFolder : workspace.tree.entry? (workspace.locate path) ≠ some .directory := by
    intro folder
    rw [FileTree.writeFile, folder] at written
    cases written
  have way' : { workspace with tree }.checkWay path = .ok () := by
    rw [checkWay_eq_ok_iff] at way ⊢
    intro turn member
    rw [entry turn, if_neg, way turn member]
    rintro rfl
    exact notFolder (way _ member)
  rw [find, if_neg nonempty, way']
  exact FileTree.find_eq_ok_iff.2 ((entry _).trans (if_pos rfl))

/-- The directories that are made for a file leave all files as they are. -/
theorem file?_of_makeDirectories {result : Except Fault Unit}
    (h : outcome (Disk.makeDirectories path) workspace = (result, after))
    : after.directory = workspace.directory
      ∧ ∀ place, after.tree.file? place = workspace.tree.file? place := by
  rw [outcome_makeDirectories] at h
  cases h
  exact ⟨rfl, workspace.file?_makeDirectories path⟩

/-- A text that is written puts a file where the path leads, and is found there. -/
theorem putsFile_of_writeText {text : String}
    (h : outcome (writeText path text) workspace = (.ok (), after))
    : PutsFile (workspace.locate path) (Encoding.encode text) workspace.tree after.tree
      ∧ after.find path = .ok (.file (Encoding.encode text)) := by
  obtain ⟨_, middle, made, changed⟩ := bind_eq_ok.1 h
  obtain ⟨directory, same⟩ := file?_of_makeDirectories made
  obtain ⟨tree, written, rfl⟩ := change_eq_ok.1 changed
  have sameLocation : middle.locate path = workspace.locate path := by
    rw [Workspace.locate, Workspace.locate, directory]
  obtain ⟨entry, found⟩ := Workspace.entry?_of_writeFile written
  refine ⟨fun place => ?_, found⟩
  have entry := entry place
  rw [sameLocation] at entry
  split
  · rename_i here
    rw [if_pos here] at entry
    exact FileTree.file?_eq_some_iff.2 entry
  · rename_i elsewhere
    rw [if_neg elsewhere] at entry
    exact (FileTree.file?_congr entry).trans (same place)

/-- A text that is not written leaves all files as they are. -/
theorem file?_of_writeText_eq_error {text : String} {fault : Fault}
    (h : outcome (writeText path text) workspace = (.error fault, after)) (place : Location)
    : after.tree.file? place = workspace.tree.file? place := by
  rcases bind_eq_error.1 h with unmade | ⟨_, middle, made, unwritten⟩
  · exact (file?_of_makeDirectories unmade).2 place
  · rw [change_eq_error unwritten]
    exact (file?_of_makeDirectories made).2 place

theorem writeText_eq_ok {text : String} (spells : PathText.Spells path location)
    (h : outcome (writeText path text) workspace = (.ok (), after))
    : PutsFile location (Encoding.encode text) workspace.tree after.tree := by
  have puts := (putsFile_of_writeText h).1
  rwa [Workspace.locate_of_spells spells] at puts

theorem copyFile_eq_ok {source : String} {origin : Location}
    (spells : PathText.Spells path location) (spells' : PathText.Spells source origin)
    (h : outcome (copyFile source path) workspace = (.ok (), after))
    : ∃ content,
        workspace.tree.file? origin = some content
        ∧ PutsFile location content workspace.tree after.tree := by
  obtain ⟨_, middle, made, copied⟩ := bind_eq_ok.1 h
  rw [spells.parent_eq] at made
  obtain ⟨_, rfl, adds, _⟩ :=
    makeDirectories_eq_ok (PathText.spells_absolute spells.named.dropLast) made
  obtain ⟨content, found, writes⟩ := copy_eq_ok spells copied
  refine ⟨content, ?_, fun place => ?_⟩
  · rw [← adds.file?_eq, Workspace.file?_of_find spells' found]
  · rw [writes.putsFile place, adds.file?_eq]

/-- The files below a location, each with its content. -/
def Holds (location : Location) (files : Location → Bytes → Prop) (tree : FileTree) : Prop :=
  ∀ names content, tree.file? (location ++ names) = some content ↔ files names content

theorem Holds.congr {files files' : Location → Bytes → Prop} {tree : FileTree}
    (h : Holds location files tree)
    (same : ∀ names content, files names content ↔ files' names content)
    : Holds location files' tree :=
  fun names content => (h names content).trans (same names content)

theorem Holds.put {files : Location → Bytes → Prop} {before after : FileTree} {names : Location}
    {content : Bytes} (h : Holds location files before)
    (puts : PutsFile (location ++ names) content before after)
    (only : ∀ content', files names content' → content' = content)
    : Holds location (fun names' content' =>
        files names' content' ∨ names' = names ∧ content' = content) after := by
  intro names' content'
  rw [puts]
  by_cases same : names' = names
  · subst same
    rw [if_pos rfl, Option.some.injEq]
    constructor
    · rintro rfl
      exact .inr ⟨rfl, rfl⟩
    · rintro (isThere | ⟨_, rfl⟩)
      · exact (only content' isThere).symm
      · rfl
  · rw [if_neg (fun eq => same (List.append_cancel_left eq)), h names' content']
    exact ⟨.inl, fun either => either.resolve_right fun other => same other.1⟩

end Stencil.Files

