import Stencil.Proofs.Files.AlikeRuns

/-! Reading in two workspaces. Actions that leave their workspaces as they are come to related
results where what they read is related, so that each can be compared at the places that it looks at.
-/

namespace Stencil.Files

open Outcome (Related)

variable {ε ε' α α' β β' ι : Type} {first second workspace : Workspace}

/-- Two actions leave their workspaces as they are, and come to the same error or to values that are
related.
-/
def ReadsAlike (R : α → α' → Prop) (first second : Workspace)
    (action : ExceptT ε (StateM Workspace) α) (action' : ExceptT ε (StateM Workspace) α')
    : Prop :=
  ∃ result result',
    outcome action first = (result, first)
    ∧ outcome action' second = (result', second)
    ∧ Related R result result'

section

variable {R : α → α' → Prop} {S : β → β' → Prop} {action : ExceptT ε (StateM Workspace) α}
  {action' : ExceptT ε (StateM Workspace) α'}

theorem readsAlike_pure {value : α} {value' : α'} (related : R value value')
    : ReadsAlike R first second (pure value : ExceptT ε (StateM Workspace) α) (pure value') :=
  ⟨_, _, rfl, rfl, .ok related⟩

theorem readsAlike_throw (fault : ε)
    : ReadsAlike R first second (throw fault : ExceptT ε (StateM Workspace) α) (throw fault) :=
  ⟨_, _, rfl, rfl, .error fault⟩

theorem ReadsAlike.bind {next : α → ExceptT ε (StateM Workspace) β}
    {next' : α' → ExceptT ε (StateM Workspace) β'} (h : ReadsAlike R first second action action')
    (h' : ∀ value value', R value value' →
      ReadsAlike S first second (next value) (next' value'))
    : ReadsAlike S first second (action >>= next) (action' >>= next') := by
  obtain ⟨result, result', ran, ran', related⟩ := h
  simp only [ReadsAlike, outcome_bind, ran, ran']
  cases related with
  | error fault => exact ⟨_, _, rfl, rfl, .error fault⟩
  | ok related => exact h' _ _ related

theorem ReadsAlike.adapt (h : ReadsAlike R first second action action') (f : ε → ε')
    : ReadsAlike R first second (action.adapt f) (action'.adapt f) := by
  obtain ⟨result, result', ran, ran', related⟩ := h
  simp only [ReadsAlike, outcome_adapt, ran, ran']
  exact ⟨_, _, rfl, rfl, related.mapError f⟩

/-- What all items come to, by induction on the items. -/
theorem ReadsAlike.mapM {items : List ι} {each : ι → ExceptT ε (StateM Workspace) β}
    {each' : ι → ExceptT ε (StateM Workspace) β'}
    (h : ∀ item ∈ items, ReadsAlike S first second (each item) (each' item))
    : ReadsAlike (List.Forall₂ S) first second (items.mapM each) (items.mapM each') := by
  induction items with
  | nil => exact readsAlike_pure .nil
  | cons item items ih =>
      rw [List.mapM_cons, List.mapM_cons]
      exact (h item (List.mem_cons_self ..)).bind fun _ _ here =>
        (ih fun other member => h other (List.mem_cons_of_mem _ member)).bind fun _ _ later =>
          readsAlike_pure (.cons here later)

theorem ReadsAlike.same {action : ExceptT ε (StateM Workspace) α}
    (h : ReadsAlike Eq first second action action)
    : (outcome action second).1 = (outcome action first).1 := by
  obtain ⟨result, result', ran, ran', related⟩ := h
  rw [ran, ran']
  exact related.eq

end

-----------------------------------------------------------------------------------------
-- The operations
-----------------------------------------------------------------------------------------

/-- The same files stand at and above a location. -/
def SameFilesTo (first second : FileTree) (location : Location) : Prop :=
  ∀ place, place <+: location → second.file? place = first.file? place

theorem SameFilesTo.isBlocked_eq {first second : FileTree} {location : Location}
    (same : SameFilesTo first second location)
    : second.isBlocked location = first.isBlocked location := by
  rw [FileTree.isBlocked_eq, FileTree.isBlocked_eq]
  refine Bool.eq_iff_iff.2 ?_
  simp only [List.any_eq_true]
  refine exists_congr fun place => and_congr_right fun member => ?_
  rw [same place (FileTree.prefix_of_mem_above member)]

section

variable {location : Location} (named : location.Named)

include named

/-- What reading a file comes to, a fault apart. -/
theorem toOption_read (workspace : Workspace)
    : (outcome (Disk.read (PathText.absolute location)) workspace).1.toOption
      = workspace.tree.file? location := by
  simp only [Disk.read, outcome_bind, outcome_get, outcome_orFault,
    Workspace.find_absolute named, FileTree.find, FileTree.file?]
  rcases workspace.tree.entry? location with _ | _ | _ <;> rfl

/-- Whether a text can be read, and which, depends on the file at its location. -/
theorem readsAlike_attempt_readText
    (same : second.tree.file? location = first.tree.file? location)
    : ReadsAlike (fun result result' => result'.toOption = result.toOption) first second
        (attempt (readText (PathText.absolute location)) : ExceptT ε (StateM Workspace) _)
        (attempt (readText (PathText.absolute location))) := by
  have reads (workspace : Workspace)
      : outcome (attempt (readText (PathText.absolute location))
          : ExceptT ε (StateM Workspace) _) workspace
        = (.ok ((outcome (Disk.read (PathText.absolute location)) workspace).1.map Encoding.decode),
          workspace) := by
    rw [outcome_attempt, readText, outcome_map, readsOnly_read]
  refine ⟨_, _, reads first, reads second, .ok ?_⟩
  rw [Outcome.toOption_map, Outcome.toOption_map, toOption_read named, toOption_read named, same]

end

end Stencil.Files
