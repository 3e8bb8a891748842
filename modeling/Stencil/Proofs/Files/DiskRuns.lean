import Mathlib.Data.List.Forall2
import Stencil.Proofs.Files.Ways

/-! What the file operations do to a workspace. The outcome of an action is its result and the
workspace after it; the outcome of a sequence is taken apart into those of its parts.
-/

namespace Stencil.Files

variable {ε ε' α β : Type} {workspace after : Workspace}

/-- What comes of an action on a workspace, and the workspace after it. -/
def outcome (action : ExceptT ε (StateM Workspace) α) (workspace : Workspace)
    : Except ε α × Workspace :=
  Id.run (action.run.run workspace)

-----------------------------------------------------------------------------------------
-- Sequences of actions
-----------------------------------------------------------------------------------------

@[simp] theorem outcome_pure (value : α) (workspace : Workspace)
    : outcome (pure value : ExceptT ε (StateM Workspace) α) workspace = (.ok value, workspace) :=
  rfl

@[simp] theorem outcome_throw (fault : ε) (workspace : Workspace)
    : outcome (throw fault : ExceptT ε (StateM Workspace) α) workspace
      = (.error fault, workspace) :=
  rfl

@[simp] theorem outcome_get (workspace : Workspace)
    : outcome (get : ExceptT ε (StateM Workspace) Workspace) workspace
      = (.ok workspace, workspace) :=
  rfl

@[simp] theorem outcome_set (workspace' workspace : Workspace)
    : outcome (set workspace' : ExceptT ε (StateM Workspace) PUnit) workspace
      = (.ok ⟨⟩, workspace') :=
  rfl

theorem outcome_bind (action : ExceptT ε (StateM Workspace) α)
    (next : α → ExceptT ε (StateM Workspace) β) (workspace : Workspace)
    : outcome (action >>= next) workspace
      = match outcome action workspace with
        | (.ok value, middle) => outcome (next value) middle
        | (.error fault, middle) => (.error fault, middle) := by
  change (match action.run.run workspace with
    | (result, middle) => (ExceptT.bindCont next result).run middle) = _
  rcases found : outcome action workspace with ⟨_ | _, middle⟩ <;>
    rw [show action.run.run workspace = _ from found] <;> rfl

/-- A sequence succeeds if its parts do, one after the other. -/
theorem bind_eq_ok {action : ExceptT ε (StateM Workspace) α}
    {next : α → ExceptT ε (StateM Workspace) β} {result : β}
    : outcome (action >>= next) workspace = (.ok result, after)
      ↔ ∃ value middle,
          outcome action workspace = (.ok value, middle)
          ∧ outcome (next value) middle = (.ok result, after) := by
  rw [outcome_bind]
  rcases outcome action workspace with ⟨_ | _, middle⟩ <;> simp [and_assoc]

/-- A sequence fails if its first part does, or the rest after that. -/
theorem bind_eq_error {action : ExceptT ε (StateM Workspace) α}
    {next : α → ExceptT ε (StateM Workspace) β} {fault : ε}
    : outcome (action >>= next) workspace = (.error fault, after)
      ↔ outcome action workspace = (.error fault, after)
        ∨ ∃ value middle,
            outcome action workspace = (.ok value, middle)
            ∧ outcome (next value) middle = (.error fault, after) := by
  rw [outcome_bind]
  rcases outcome action workspace with ⟨_ | _, middle⟩ <;> simp [and_assoc]

@[simp] theorem outcome_map (f : α → β) (action : ExceptT ε (StateM Workspace) α)
    (workspace : Workspace)
    : outcome (f <$> action) workspace
      = ((outcome action workspace).1.map f, (outcome action workspace).2) := by
  rw [map_eq_pure_bind, outcome_bind]
  rcases outcome action workspace with ⟨_ | _, middle⟩ <;> rfl

@[simp] theorem outcome_adapt (f : ε → ε') (action : ExceptT ε (StateM Workspace) α)
    (workspace : Workspace)
    : outcome (action.adapt f) workspace
      = ((outcome action workspace).1.mapError f, (outcome action workspace).2) :=
  rfl

theorem adapt_eq_ok {f : ε → ε'} {action : ExceptT ε (StateM Workspace) α} {value : α}
    : outcome (action.adapt f) workspace = (.ok value, after)
      ↔ outcome action workspace = (.ok value, after) := by
  rw [outcome_adapt]
  rcases outcome action workspace with ⟨_ | _, _⟩ <;> simp [Except.mapError]

theorem adapt_eq_error {f : ε → ε'} {action : ExceptT ε (StateM Workspace) α} {fault : ε'}
    : outcome (action.adapt f) workspace = (.error fault, after)
      ↔ ∃ cause, outcome action workspace = (.error cause, after) ∧ f cause = fault := by
  rw [outcome_adapt]
  rcases outcome action workspace with ⟨_ | _, _⟩ <;> simp [Except.mapError, and_comm]

@[simp] theorem outcome_attempt (action : ExceptT ε (StateM Workspace) α) (workspace : Workspace)
    : outcome (attempt action : ExceptT ε' (StateM Workspace) _) workspace
      = (.ok (outcome action workspace).1, (outcome action workspace).2) :=
  rfl

theorem attempt_eq_ok {action : ExceptT ε (StateM Workspace) α} {result : Except ε α}
    : outcome (attempt action : ExceptT ε' (StateM Workspace) _) workspace = (.ok result, after)
      ↔ outcome action workspace = (result, after) := by
  rw [outcome_attempt]
  simp [Prod.ext_iff]

@[simp] theorem outcome_orFault (action : String) (result : Except Errno α) (workspace : Workspace)
    : outcome (orFault action result) workspace
      = (result.mapError fun errno => ⟨errno, action⟩, workspace) :=
  rfl

theorem orFault_eq_ok {action : String} {result : Except Errno α} {value : α}
    : outcome (orFault action result) workspace = (.ok value, after)
      ↔ result = .ok value ∧ after = workspace := by
  cases result <;> simp [Except.mapError, eq_comm]

theorem orFault_eq_error {action : String} {result : Except Errno α} {fault : Fault}
    : outcome (orFault action result) workspace = (.error fault, after)
      ↔ result = .error fault.errno ∧ fault.action = action ∧ after = workspace := by
  cases result with
  | error errno =>
      obtain ⟨errno', action'⟩ := fault
      simp [Except.mapError, eq_comm, and_assoc]
  | ok value => simp [Except.mapError]

-----------------------------------------------------------------------------------------
-- Actions that change nothing
-----------------------------------------------------------------------------------------

/-- An action that leaves every workspace as it is. -/
def ReadsOnly (action : ExceptT ε (StateM Workspace) α) : Prop :=
  ∀ workspace, (outcome action workspace).2 = workspace

theorem ReadsOnly.eq {action : ExceptT ε (StateM Workspace) α} (h : ReadsOnly action)
    {result : Except ε α} (found : outcome action workspace = (result, after))
    : after = workspace := by
  rw [← h workspace, found]

theorem ReadsOnly.eq_ok_of_mem {action : ExceptT ε (StateM Workspace) α} (h : ReadsOnly action)
    {value : α} (member : value ∈ (outcome action workspace).1.toOption)
    : outcome action workspace = (.ok value, workspace) := by
  rcases found : outcome action workspace with ⟨_ | result, middle⟩
  all_goals
    rw [found] at member
    cases member
  cases h.eq found
  rfl

theorem readsOnly_pure (value : α) : ReadsOnly (pure value : ExceptT ε (StateM Workspace) α) :=
  fun _ => rfl

theorem readsOnly_throw (fault : ε) : ReadsOnly (throw fault : ExceptT ε (StateM Workspace) α) :=
  fun _ => rfl

theorem ReadsOnly.bind {action : ExceptT ε (StateM Workspace) α}
    {next : α → ExceptT ε (StateM Workspace) β} (h : ReadsOnly action)
    (h' : ∀ value, ReadsOnly (next value))
    : ReadsOnly (action >>= next) := by
  intro workspace
  rw [outcome_bind]
  rcases found : outcome action workspace with ⟨_ | value, middle⟩
  · exact h.eq found
  · exact (h' value middle).trans (h.eq found)

theorem ReadsOnly.adapt {action : ExceptT ε (StateM Workspace) α} (h : ReadsOnly action)
    (f : ε → ε')
    : ReadsOnly (action.adapt f) :=
  h

theorem ReadsOnly.attempt {action : ExceptT ε (StateM Workspace) α} (h : ReadsOnly action)
    : ReadsOnly (attempt action : ExceptT ε' (StateM Workspace) _) :=
  h

theorem readsOnly_get : ReadsOnly (get : ExceptT ε (StateM Workspace) Workspace) :=
  fun _ => rfl

theorem readsOnly_orFault (action : String) (result : Except Errno α)
    : ReadsOnly (orFault action result) :=
  fun _ => rfl

/-- Doing the same for each item of a list, by induction on the list. -/
theorem readsOnly_mapM {action : α → ExceptT ε (StateM Workspace) β}
    (h : ∀ item, ReadsOnly (action item)) (items : List α)
    : ReadsOnly (items.mapM action) := by
  induction items with
  | nil => exact readsOnly_pure _
  | cons item items ih =>
      rw [List.mapM_cons]
      exact (h item).bind fun _ => ih.bind fun _ => readsOnly_pure _

/-- The results for the items of a list, if none of them fails, by induction on the list. -/
theorem forall₂_of_mapM {action : α → ExceptT ε (StateM Workspace) β}
    (h : ∀ item, ReadsOnly (action item)) {items : List α} {results : List β}
    (found : outcome (items.mapM action) workspace = (.ok results, after))
    : List.Forall₂ (fun item result => outcome (action item) workspace = (.ok result, workspace))
        items results := by
  induction items generalizing results with
  | nil =>
      cases found
      exact .nil
  | cons item items ih =>
      rw [List.mapM_cons] at found
      obtain ⟨result, middle, first, found⟩ := bind_eq_ok.1 found
      cases (h item).eq first
      obtain ⟨more, middle, later, found⟩ := bind_eq_ok.1 found
      cases found
      exact .cons first (ih later)

-----------------------------------------------------------------------------------------
-- Properties that actions keep
-----------------------------------------------------------------------------------------

/-- An action keeps a property of workspaces, whether it succeeds or fails. -/
def Keeps (property : Workspace → Prop) (action : ExceptT ε (StateM Workspace) α) : Prop :=
  ∀ workspace, property workspace → property (outcome action workspace).2

theorem Keeps.of_outcome {property : Workspace → Prop} {action : ExceptT ε (StateM Workspace) α}
    {result : Except ε α} (h : Keeps property action) (kept : property workspace)
    (ran : outcome action workspace = (result, after))
    : property after := by
  have kept := h workspace kept
  rwa [ran] at kept

theorem Keeps.bind {property : Workspace → Prop} {action : ExceptT ε (StateM Workspace) α}
    {next : α → ExceptT ε (StateM Workspace) β} (h : Keeps property action)
    (h' : ∀ value, Keeps property (next value))
    : Keeps property (action >>= next) := by
  intro workspace kept
  have first := h workspace kept
  rw [outcome_bind]
  generalize outcome action workspace = found at first
  rcases found with ⟨_ | value, middle⟩
  · exact first
  · exact h' value middle first

theorem Keeps.adapt {property : Workspace → Prop} {action : ExceptT ε (StateM Workspace) α}
    (h : Keeps property action) (f : ε → ε')
    : Keeps property (action.adapt f) :=
  h

theorem Keeps.attempt {property : Workspace → Prop} {action : ExceptT ε (StateM Workspace) α}
    (h : Keeps property action)
    : Keeps property (attempt action : ExceptT ε' (StateM Workspace) _) :=
  h

theorem keeps_pure {property : Workspace → Prop} (value : α)
    : Keeps property (pure value : ExceptT ε (StateM Workspace) α) :=
  fun _ kept => kept

theorem keeps_throw {property : Workspace → Prop} (fault : ε)
    : Keeps property (throw fault : ExceptT ε (StateM Workspace) α) :=
  fun _ kept => kept

/-- What is kept for each item, all of them keep, by induction on the items. -/
theorem Keeps.forM {property : Workspace → Prop} {action : α → ExceptT ε (StateM Workspace) PUnit}
    {items : List α} (h : ∀ item ∈ items, Keeps property (action item))
    : Keeps property (items.forM action) := by
  induction items with
  | nil => exact fun _ kept => kept
  | cons item items ih =>
      exact (h item (List.mem_cons_self ..)).bind fun _ =>
        ih fun other member => h other (List.mem_cons_of_mem _ member)

/-- What holds of the items that have been passed holds of all in the end, by induction on the items
that are left.
-/
theorem forM_eq_ok {items : List α} {action : α → ExceptT ε (StateM Workspace) PUnit}
    {P : List α → Workspace → Prop}
    (step : ∀ passed item rest middle next, items = passed ++ item :: rest → P passed middle →
      outcome (action item) middle = (.ok ⟨⟩, next) → P (passed ++ [item]) next)
    (start : P [] workspace) (h : outcome (items.forM action) workspace = (.ok ⟨⟩, after))
    : P items after := by
  suffices key : ∀ (left passed : List α) (middle : Workspace), items = passed ++ left →
      P passed middle → outcome (left.forM action) middle = (.ok ⟨⟩, after) → P items after from
    key items [] workspace rfl start h
  intro left
  induction left with
  | nil =>
      intro passed middle all holds done
      cases done
      rwa [all, List.append_nil]
  | cons item left ih =>
      intro passed middle all holds done
      obtain ⟨_, next, first, later⟩ := bind_eq_ok.1 done
      refine ih (passed ++ [item]) next ?_ (step passed item left middle next all holds first) later
      rw [all, List.append_assoc, List.singleton_append]

-----------------------------------------------------------------------------------------
-- The operations
-----------------------------------------------------------------------------------------

theorem outcome_change (action : String) (step : Workspace → Except Errno FileTree)
    (workspace : Workspace)
    : outcome (change action step) workspace
      = match step workspace with
        | .ok tree => (.ok (), { workspace with tree })
        | .error errno => (.error ⟨errno, action⟩, workspace) := by
  cases found : step workspace <;> simp [change, outcome_bind, found, Except.mapError]

theorem change_eq_ok {action : String} {step : Workspace → Except Errno FileTree}
    : outcome (change action step) workspace = (.ok (), after)
      ↔ ∃ tree, step workspace = .ok tree ∧ after = { workspace with tree } := by
  rw [outcome_change]
  cases step workspace <;> simp [eq_comm]

theorem change_eq_error {action : String} {step : Workspace → Except Errno FileTree} {fault : Fault}
    (h : outcome (change action step) workspace = (.error fault, after))
    : after = workspace := by
  rw [outcome_change] at h
  cases found : step workspace <;> simp_all

theorem readsOnly_isDirectory (path : String)
    : ReadsOnly (Disk.isDirectory path : ExceptT Fault (StateM Workspace) Bool) :=
  readsOnly_get.bind fun _ => (readsOnly_orFault _ _).bind fun _ => readsOnly_pure _

theorem isDirectory_eq_ok {path : String} {isDirectory : Bool}
    (h : outcome (Disk.isDirectory path) workspace = (.ok isDirectory, after))
    : ∃ entry, workspace.find path = .ok entry ∧ entry.isDirectory = isDirectory := by
  obtain ⟨_, _, got, h⟩ := bind_eq_ok.1 h
  cases got
  obtain ⟨entry, _, found, h⟩ := bind_eq_ok.1 h
  cases h
  exact ⟨entry, (orFault_eq_ok.1 found).1, rfl⟩

theorem outcome_isDirectory (path : String) (workspace : Workspace)
    : outcome (Disk.isDirectory path) workspace
      = (((workspace.find path).map Entry.isDirectory).mapError
          fun errno => ⟨errno, actionOn "stat" path⟩, workspace) := by
  change outcome (get >>= fun workspace =>
    orFault (actionOn "stat" path) (workspace.find path) >>= fun entry => pure entry.isDirectory)
    workspace = _
  cases found : workspace.find path <;>
    simp [outcome_bind, found, Except.mapError, Except.map]

theorem run_isFolder (path : String) (workspace : Workspace)
    : (isFolder path : StateM Workspace Bool).run workspace
      = (match workspace.find path with
          | .ok .directory => true
          | _ => false,
        workspace) := by
  have looked : StateT.run (ExceptT.run (Disk.isDirectory path)) workspace = _ :=
    outcome_isDirectory path workspace
  rw [isFolder, StateT.run_bind, looked]
  rcases workspace.find path with _ | _ | _ <;> rfl

theorem readsOnly_read (path : String)
    : ReadsOnly (Disk.read path : ExceptT Fault (StateM Workspace) Bytes) := by
  refine readsOnly_get.bind fun _ => (readsOnly_orFault _ _).bind fun entry => ?_
  cases entry with
  | file content => exact readsOnly_pure _
  | directory => exact readsOnly_orFault _ _

theorem read_eq_ok {path : String} {content : Bytes}
    (h : outcome (Disk.read path) workspace = (.ok content, after))
    : workspace.find path = .ok (.file content) := by
  obtain ⟨_, _, got, h⟩ := bind_eq_ok.1 h
  cases got
  obtain ⟨entry, _, found, h⟩ := bind_eq_ok.1 h
  cases entry <;> cases h
  exact (orFault_eq_ok.1 found).1

theorem readsOnly_files (path : String)
    : ReadsOnly (Disk.files path : ExceptT Fault (StateM Workspace) (List (List String))) := by
  refine readsOnly_get.bind fun _ => (readsOnly_orFault _ _).bind fun entry => ?_
  cases entry with
  | file content => exact readsOnly_orFault _ _
  | directory => exact readsOnly_pure _

theorem files_eq_ok {path : String} {files : List (List String)}
    (h : outcome (Disk.files path) workspace = (.ok files, after))
    : files = workspace.tree.filesBelow (workspace.locate path) := by
  obtain ⟨_, _, got, h⟩ := bind_eq_ok.1 h
  cases got
  obtain ⟨entry, _, found, h⟩ := bind_eq_ok.1 h
  cases entry <;> cases h
  rfl

/-- A file has been written at a location where no directory stood. -/
structure WritesFile (location : Location) (content : Bytes) (before after : Workspace) : Prop where
  notDirectory : before.tree.entry? location ≠ some .directory
  directory : after.directory = before.directory
  entry? (place : Location) : after.tree.entry? place
    = if place = location then some (.file content) else before.tree.entry? place

section

variable {path : String} {location : Location} (spells : PathText.Spells path location)

include spells

theorem Workspace.find_eq_directory_iff
    : workspace.find path = .ok .directory ↔ workspace.tree.entry? location = some .directory := by
  rw [find_of_spells spells, ← FileTree.find_eq_ok_iff]
  split
  · rename_i found
    split <;> simp [found]
  · rfl

theorem Workspace.file?_of_find {content : Bytes} (h : workspace.find path = .ok (.file content))
    : workspace.tree.file? location = some content := by
  rw [find_of_spells spells] at h
  rw [FileTree.file?_eq_some_iff, ← FileTree.find_eq_ok_iff]
  split at h
  · rename_i found
    split at h <;> simp_all
  · exact h

theorem Workspace.entry?_of_find_eq_noEntry (h : workspace.find path = .error .noEntry)
    : workspace.tree.entry? location = none := by
  rw [find_of_spells spells] at h
  split at h
  · split at h <;> simp at h
  · rw [FileTree.find] at h
    split at h <;> simp_all

theorem Workspace.writeFile_eq_ok {content : Bytes} {tree : FileTree}
    (h : workspace.writeFile path content = .ok tree)
    : workspace.tree.writeFile location content = .ok tree := by
  rw [writeFile_of_spells spells] at h
  split at h
  · obtain ⟨_, _, refused⟩ := Outcome.bind_eq_ok_iff.1 h
    cases refused
  · exact h

theorem Workspace.writesFile {content : Bytes} {tree : FileTree}
    (h : workspace.writeFile path content = .ok tree)
    : WritesFile location content workspace { workspace with tree } := by
  have written := writeFile_eq_ok spells h
  refine ⟨fun isDirectory => ?_, rfl, FileTree.entry?_writeFile written⟩
  simp [FileTree.writeFile, isDirectory] at written

theorem write_eq_ok {content : Bytes}
    (h : outcome (Disk.write path content) workspace = (.ok (), after))
    : WritesFile location content workspace after := by
  obtain ⟨tree, written, rfl⟩ := change_eq_ok.1 h
  exact Workspace.writesFile spells written

omit spells in
theorem outcome_makeDirectories (path : String) (workspace : Workspace)
    : let made := workspace.makeDirectories path
      outcome (Disk.makeDirectories path) workspace
        = (made.1.mapError fun errno =>
            ⟨errno, actionOn "mkdir" (workspace.blamedPath path made.2)⟩,
          { workspace with tree := made.2 }) :=
  rfl

/-- Making the directory at a spelled location. -/
theorem outcome_makeDirectories_of_spells (workspace : Workspace)
    : outcome (Disk.makeDirectories path) workspace
      = match workspace.tree.makeDirectories location with
        | .ok tree => (.ok (), { workspace with tree })
        | .error errno =>
          (.error ⟨if Workspace.endsWithSlash path then .notDirectory else errno,
            actionOn "mkdir" path⟩, workspace) := by
  rw [outcome_makeDirectories, Workspace.makeDirectories_of_spells spells]
  rcases made : workspace.tree.makeDirectories location with errno | tree
  · rw [Workspace.blamedPath_of_spells spells _ made]
    rfl
  · rfl

/-- Making directories adds those that are missing. -/
theorem makeDirectories_eq_ok
    (h : outcome (Disk.makeDirectories path) workspace = (.ok (), after))
    : ∃ tree,
        after = { workspace with tree }
        ∧ FileTree.AddsFolders location workspace.tree tree
        ∧ tree.entry? location = some .directory
        ∧ (workspace.tree.WellFormed → tree.Reaches location) := by
  rw [outcome_makeDirectories_of_spells spells] at h
  split at h
  · rename_i tree made
    cases h
    exact ⟨tree, rfl, FileTree.addsFolders_of_makeDirectories made⟩
  · cases h

theorem makeDirectories_eq_error {fault : Fault}
    (h : outcome (Disk.makeDirectories path) workspace = (.error fault, after))
    : after = workspace := by
  rw [outcome_makeDirectories_of_spells spells] at h
  split at h
  · cases h
  · cases h
    rfl

/-- Making a directory that is there changes nothing. -/
theorem makeDirectories_of_directory (h : workspace.tree.entry? location = some .directory)
    : outcome (Disk.makeDirectories path) workspace = (.ok (), workspace) := by
  rw [outcome_makeDirectories_of_spells spells, FileTree.makeDirectories, h]

omit spells in
/-- Copying writes the content of a file. -/
theorem exists_writeFile_of_copy {source : String}
    (h : outcome (Disk.copy source path) workspace = (.ok (), after))
    : ∃ content tree,
        workspace.find source = .ok (.file content)
        ∧ workspace.writeFile path content = .ok tree
        ∧ after = { workspace with tree } := by
  change outcome (Workspace.copy source path) workspace = _ at h
  rw [Workspace.copy] at h
  obtain ⟨_, _, got, h⟩ := bind_eq_ok.1 h
  cases got
  obtain ⟨entry, _, found, h⟩ := bind_eq_ok.1 h
  obtain ⟨found, rfl⟩ := orFault_eq_ok.1 found
  cases entry with
  | file content =>
      obtain ⟨tree, written, rfl⟩ := change_eq_ok.1 h
      exact ⟨content, tree, found, written, rfl⟩
  | directory =>
      obtain ⟨_, _, _, h⟩ := bind_eq_ok.1 h
      obtain ⟨_, _, _, h⟩ := bind_eq_ok.1 h
      cases h

theorem copy_eq_ok {source : String}
    (h : outcome (Disk.copy source path) workspace = (.ok (), after))
    : ∃ content,
        workspace.find source = .ok (.file content)
        ∧ WritesFile location content workspace after := by
  obtain ⟨content, tree, found, written, rfl⟩ := exists_writeFile_of_copy h
  exact ⟨content, found, Workspace.writesFile spells written⟩

/-- A copy that fails may take away the file in its place. -/
theorem copy_eq_error {source : String} {fault : Fault}
    (h : outcome (Disk.copy source path) workspace = (.error fault, after))
    : after = workspace
      ∨ workspace.tree.entry? location ≠ some .directory
        ∧ after = { workspace with tree := workspace.tree.remove location } := by
  change outcome (Workspace.copy source path) workspace = _ at h
  rw [Workspace.copy] at h
  rcases bind_eq_error.1 h with failed | ⟨_, _, got, h⟩
  · cases failed
  cases got
  rcases bind_eq_error.1 h with failed | ⟨entry, _, found, h⟩
  · exact .inl (orFault_eq_error.1 failed).2.2
  obtain ⟨found, rfl⟩ := orFault_eq_ok.1 found
  cases entry with
  | file content => exact .inl (change_eq_error h)
  | directory =>
      rcases bind_eq_error.1 h with failed | ⟨_, _, written, h⟩
      · exact .inl (orFault_eq_error.1 failed).2.2
      obtain ⟨written, rfl⟩ := orFault_eq_ok.1 written
      rcases bind_eq_error.1 h with failed | ⟨_, _, removed, h⟩
      · cases failed
      cases removed
      cases h
      rw [Workspace.locate_of_spells spells]
      exact .inr ⟨(Workspace.writesFile spells written).notDirectory, rfl⟩

/-- Removing takes away what stands at and below a location, but never the top. -/
theorem remove_eq_ok (h : outcome (Disk.remove path) workspace = (.ok (), after))
    : workspace.tree.entry? location = none ∧ after = workspace
      ∨ location ≠ [] ∧ after = { workspace with tree := workspace.tree.remove location } := by
  obtain ⟨_, _, got, h⟩ := bind_eq_ok.1 h
  cases got
  split at h
  · rename_i missing
    cases h
    exact .inl ⟨Workspace.entry?_of_find_eq_noEntry spells missing, rfl⟩
  · rw [outcome_orFault] at h
    cases h
  · obtain ⟨tree, discarded, rfl⟩ := change_eq_ok.1 h
    rw [Workspace.locate_of_spells spells, FileTree.discard_eq_ok_iff] at discarded
    obtain ⟨nonempty, rfl⟩ := discarded
    exact .inr ⟨nonempty, rfl⟩

/-- A directory below the top can be removed. -/
theorem remove_of_directory (nonempty : location ≠ [])
    (h : workspace.tree.entry? location = some .directory)
    : outcome (Disk.remove path) workspace
      = (.ok (), { workspace with tree := workspace.tree.remove location }) := by
  refine bind_eq_ok.2 ⟨workspace, workspace, rfl, ?_⟩
  rw [(Workspace.find_eq_directory_iff spells).2 h]
  refine change_eq_ok.2 ⟨_, ?_, rfl⟩
  rw [Workspace.locate_of_spells spells, FileTree.discard_eq_ok_iff]
  exact ⟨nonempty, rfl⟩

omit spells in
theorem remove_eq_error {fault : Fault}
    (h : outcome (Disk.remove path) workspace = (.error fault, after))
    : after = workspace := by
  rcases bind_eq_error.1 h with failed | ⟨_, _, got, h⟩
  · cases failed
  cases got
  split at h
  · cases h
  · exact (orFault_eq_error.1 h).2.2
  · exact change_eq_error h

omit spells in
/-- The top of the tree cannot be removed. -/
theorem remove_top (spells : PathText.Spells path []) (workspace : Workspace)
    : ∃ fault, outcome (Disk.remove path) workspace = (.error fault, workspace) := by
  rcases removed : outcome (Disk.remove path) workspace with ⟨fault | _, after⟩
  · cases remove_eq_error removed
    exact ⟨fault, rfl⟩
  · rcases remove_eq_ok spells removed with ⟨missing, _⟩ | ⟨nonempty, _⟩
    · cases missing
    · exact absurd rfl nonempty

/-- Moving a directory to a free place in a directory succeeds. -/
theorem move_eq_ok {source : String} {origin : Location} (spells' : PathText.Spells source origin)
    (h : outcome (Disk.move source path) workspace = (.ok (), after))
    : ∃ tree, workspace.tree.move origin location = .ok tree ∧ after = { workspace with tree } := by
  obtain ⟨tree, moved, rfl⟩ := change_eq_ok.1 h
  rw [Workspace.checkWay_trimmed spells, Workspace.checkWay_trimmed spells',
    Workspace.locate_of_spells spells, Workspace.locate_of_spells spells'] at moved
  exact ⟨tree, moved, rfl⟩

end

-----------------------------------------------------------------------------------------
-- New directories
-----------------------------------------------------------------------------------------

/-- Every draw of a lottery is one of another lottery, too. -/
def Lottery.Within (later lottery : Lottery) : Prop :=
  ∀ count, ∃ count', later.draw count = lottery.draw count'

theorem Lottery.Within.refl (lottery : Lottery) : lottery.Within lottery :=
  fun count => ⟨count, rfl⟩

theorem Lottery.Within.trans {last later lottery : Lottery} (h : last.Within later)
    (h' : later.Within lottery)
    : last.Within lottery := by
  intro count
  obtain ⟨count', same⟩ := h count
  obtain ⟨first, same'⟩ := h' count'
  exact ⟨first, same.trans same'⟩

theorem Lottery.next_within (lottery : Lottery) : lottery.next.Within lottery :=
  fun count => ⟨count + 1, rfl⟩

/-- What a text of a directory and a stem are continued by in the tree has been taken. -/
theorem Workspace.mem_taken {parent : Location} {stem rest : String}
    (named : Location.Named (parent ++ [stem]))
    (located : workspace.locate (PathText.absolute (parent ++ [stem]) ++ rest)
      = parent ++ [stem ++ rest])
    (stands : workspace.tree.entry? (parent ++ [stem ++ rest]) ≠ none)
    : rest ∈ workspace.taken (PathText.absolute (parent ++ [stem])) := by
  obtain ⟨entry, found⟩ := Option.ne_none_iff_exists'.1 stands
  refine List.mem_filter.2 ⟨?_, by simp [located, found]⟩
  have isLast : stem ++ rest ∈ workspace.tree.entries.filterMap fun other => other.1.getLast? :=
    List.mem_filterMap.2
      ⟨_, FileTree.mem_of_entry?_eq (List.concat_ne_nil _ _) found, List.getLast?_concat⟩
  have start : (PathText.segments (PathText.absolute (parent ++ [stem]))).getLast? = some stem := by
    rw [PathText.segments_absolute named (List.concat_ne_nil _ _), ← List.cons_append,
      List.getLast?_concat]
  refine List.mem_filterMap.2 ⟨_, isLast, ?_⟩
  rw [start, Option.getD_some, String.toList_append, List.drop_left, String.ofList_toList,
    if_pos (List.isPrefixOf_iff_prefix.2 (List.prefix_append _ _))]

/-- A name that continues another one leads to a place beside it. -/
theorem Workspace.locate_append_name {parent : Location} (named : parent.Named) {stem rest : String}
    (isName : IsName stem) (noSlash : '/' ∉ rest.toList) (workspace : Workspace)
    : workspace.locate (PathText.absolute (parent ++ [stem]) ++ rest)
      = parent ++ [stem ++ rest] := by
  rw [PathText.absolute_append_name]
  exact locate_of_spells (PathText.spells_absolute (named.concat (isName.append noSlash))) _

section

variable {parent : Location} (named : parent.Named) {stem : String} (isName : IsName stem)

include named isName

/-- The name that is drawn is free, and the directory under that name is all that is new. -/
theorem outcome_makeFresh (workspace : Workspace)
    : let rest := workspace.lottery.draw 0
        (workspace.taken (PathText.absolute (parent ++ [stem])))
      let location := parent ++ [stem ++ rest]
      IsName (stem ++ rest)
      ∧ workspace.tree.entry? location = none
      ∧ outcome (Disk.makeFresh (PathText.append (PathText.absolute parent) stem)) workspace
        = match workspace.tree.checkDirectory parent with
          | .ok () =>
            (.ok (PathText.absolute location),
              { workspace with
                tree := workspace.tree.put location .directory
                lottery := workspace.lottery.next })
          | .error errno =>
            (.error ⟨errno,
              actionOn "mkdtemp" (PathText.absolute (parent ++ [stem]) ++ "XXXXXX")⟩,
              workspace) := by
  intro rest location
  have noSlash : '/' ∉ rest.toList := workspace.lottery.noSlash 0 _
  have isName' : IsName (stem ++ rest) := isName.append noSlash
  have named' : location.Named := named.concat isName'
  have located := Workspace.locate_append_name named isName noSlash workspace
  refine ⟨isName', ?_, ?_⟩
  · by_contra stands
    exact workspace.lottery.isFree 0 _ (Workspace.mem_taken (named.concat isName) located stands)
  · have above : location.dropLast = parent := List.dropLast_concat
    have way : workspace.checkWay (PathText.absolute location) = .ok () := by
      have spells := PathText.spells_absolute named'
      rw [← spells.trimmed_eq]
      exact Workspace.checkWay_trimmed spells workspace
    have text : PathText.absolute (parent ++ [stem]) ++ rest = PathText.absolute location :=
      PathText.absolute_append_name ..
    rw [PathText.append_name named isName]
    simp only [Disk.makeFresh, outcome_bind, outcome_get, outcome_orFault]
    rw [show workspace.lottery.draw 0 _ = rest from rfl, located, text, way, FileTree.checkParent,
      above]
    rcases workspace.tree.checkDirectory parent with errno | _ <;> rfl

/-- A new directory stands in another one, under a name that nothing had. -/
structure AddsFresh (parent : Location) (name : String) (before after : Workspace) : Prop where
  isName : IsName name
  free : before.tree.entry? (parent ++ [name]) = none
  eq : after = { before with
    tree := before.tree.put (parent ++ [name]) .directory
    lottery := before.lottery.next }

theorem makeFresh_eq_ok {path : String}
    (h : outcome (Disk.makeFresh (PathText.append (PathText.absolute parent) stem)) workspace
      = (.ok path, after))
    : ∃ taken,
        let name := stem ++ workspace.lottery.draw 0 taken
        path = PathText.absolute (parent ++ [name])
        ∧ AddsFresh parent name workspace after := by
  obtain ⟨isName', free, ran⟩ := outcome_makeFresh named isName workspace
  rw [ran] at h
  split at h
  · cases h
    exact ⟨_, rfl, isName', free, rfl⟩
  · cases h

theorem makeFresh_eq_error {fault : Fault}
    (h : outcome (Disk.makeFresh (PathText.append (PathText.absolute parent) stem)) workspace
      = (.error fault, after))
    : after = workspace := by
  rw [(outcome_makeFresh named isName workspace).2.2] at h
  split at h
  · cases h
  · cases h
    rfl

end

end Stencil.Files
