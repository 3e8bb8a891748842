import Stencil.Proofs.Files.Edits
import Stencil.Proofs.Outcome

/-! Runs in workspaces that are alike. Where two well-formed workspaces have the same entries at the
places that an action looks at, and the same files above these, the action comes to the same in both,
and they are alike after it.
-/

namespace Stencil.Files

namespace FileTree

open Outcome (Related)

variable {first second : FileTree} {fixed : Location → Prop} {location : Location}

-----------------------------------------------------------------------------------------
-- Trees
-----------------------------------------------------------------------------------------

/-- Two trees with the same entries at some places, and the same files above them. -/
structure Agree (fixed : Location → Prop) (first second : FileTree) : Prop where
  entry? : ∀ place, fixed place → second.entry? place = first.entry? place
  file? : ∀ place names, fixed (place ++ names) → second.file? place = first.file? place

theorem isBlocked_eq (tree : FileTree) (location : Location)
    : tree.isBlocked location = (above location).any fun place => (tree.file? place).isSome := by
  rw [isBlocked]
  congr 1
  funext place
  rw [FileTree.file?]
  rcases tree.entry? place with _ | _ | _ <;> rfl

section

variable (agree : Agree fixed first second)

include agree

theorem Agree.isBlocked_eq {names : Location} (isAbove : fixed (location ++ names))
    : second.isBlocked location = first.isBlocked location := by
  rw [FileTree.isBlocked_eq, FileTree.isBlocked_eq]
  refine Bool.eq_iff_iff.2 ?_
  simp only [List.any_eq_true]
  refine exists_congr fun place => and_congr_right fun member => ?_
  obtain ⟨between, rfl⟩ := prefix_of_mem_above member
  rw [agree.file? place (between ++ names) (by rwa [← List.append_assoc])]

theorem Agree.find_eq (isFixed : fixed location) : second.find location = first.find location := by
  have above : fixed (location ++ []) := by rwa [List.append_nil]
  rw [find, find, agree.entry? location isFixed, agree.isBlocked_eq above]

theorem Agree.checkParent_eq (isFixed : fixed location.dropLast)
    : second.checkParent location = first.checkParent location := by
  rw [checkParent, checkParent, checkDirectory, checkDirectory, agree.find_eq isFixed]

theorem Agree.put (nonempty : location ≠ []) (entry : Entry)
    : Agree fixed (first.put location entry) (second.put location entry) := by
  refine ⟨fun place isFixed => ?_, fun place names isFixed => ?_⟩
  · rw [entry?_put nonempty, entry?_put nonempty, agree.entry? place isFixed]
  · rw [FileTree.file?, FileTree.file?, entry?_put nonempty, entry?_put nonempty]
    by_cases here : place = location
    · rw [if_pos here, if_pos here]
    · rw [if_neg here, if_neg here]
      exact agree.file? place names isFixed

theorem Agree.remove (location : Location)
    : Agree fixed (first.remove location) (second.remove location) := by
  refine ⟨fun place isFixed => ?_, fun place names isFixed => ?_⟩
  · rw [entry?_remove, entry?_remove, agree.entry? place isFixed]
  · rw [FileTree.file?, FileTree.file?, entry?_remove, entry?_remove]
    by_cases atTop : place = []
    · rw [if_pos atTop, if_pos atTop]
    · rw [if_neg atTop, if_neg atTop]
      by_cases isBelow : location <+: place
      · rw [if_pos isBelow, if_pos isBelow]
      · rw [if_neg isBelow, if_neg isBelow]
        exact agree.file? place names isFixed

/-- Writing a file comes to the same where the trees agree at and above its location. -/
theorem Agree.writeFile (isFixed : fixed location) (isFixed' : fixed location.dropLast)
    (content : Bytes)
    : Related (Agree fixed) (first.writeFile location content)
        (second.writeFile location content) := by
  have nonempty (entry : Entry) (stands : first.entry? location ≠ some .directory)
      : location ≠ [] := by
    rintro rfl
    exact stands rfl
  rw [FileTree.writeFile, FileTree.writeFile, agree.entry? location isFixed,
    agree.checkParent_eq isFixed']
  rcases found : first.entry? location with _ | _ | _
  · rcases first.checkParent location with errno | _
    · exact .error errno
    · exact .ok (agree.put (nonempty .directory (by simp [found])) _)
  · exact .ok (agree.put (nonempty .directory (by simp [found])) _)
  · exact .error _

end

/-- Above what stands in a well-formed tree, and at a directory, there is no file. -/
theorem WellFormed.not_file?_above {tree : FileTree} (h : tree.WellFormed)
    (folder : tree.entry? location = some .directory) {place : Location}
    (isAbove : place <+: location)
    : tree.file? place = none := by
  obtain ⟨names, rfl⟩ := isAbove
  by_cases here : names = []
  · rw [here, List.append_nil] at folder
    exact file?_eq_none_of_directory folder
  · exact file?_eq_none_of_directory (h.folder_above here folder)

theorem WellFormed.isBlocked_eq_false {tree : FileTree} (h : tree.WellFormed)
    (folder : tree.entry? location = some .directory)
    : tree.isBlocked location = false :=
  isBlocked_eq_false_iff.2 fun _ member => h.not_file?_above folder (prefix_of_mem_above member)

/-- What comes of making directories in a well-formed tree depends on the files at and above the
location.
-/
theorem WellFormed.makeDirectories_eq {tree : FileTree} (h : tree.WellFormed) (location : Location)
    : (tree.makeDirectories location).map (fun _ => ())
      = if (tree.file? location).isSome then .error .alreadyExists
        else if tree.isBlocked location then .error .notDirectory
        else .ok () := by
  rw [makeDirectories, FileTree.file?]
  rcases found : tree.entry? location with _ | _ | _
  · by_cases blocked : tree.isBlocked location <;> simp [blocked, Except.map]
  · rfl
  · simp [h.isBlocked_eq_false found, Except.map]

theorem WellFormed.entry?_of_makeDirectories {tree after : FileTree} (h : tree.WellFormed)
    (made : tree.makeDirectories location = .ok after) (place : Location)
    : after.entry? place = if place <+: location then some .directory else tree.entry? place := by
  obtain ⟨adds, folder, reaches⟩ := addsFolders_of_makeDirectories made
  split
  · rename_i isAbove
    have noFile : after.file? place = none := by
      rw [adds.file?_eq]
      by_cases stood : tree.entry? location = some .directory
      · exact h.not_file?_above stood isAbove
      · by_cases same : place = location
        · rw [same, ← adds.file?_eq]
          exact file?_eq_none_of_directory folder
        · rw [makeDirectories] at made
          split at made
          · cases made
          · exact absurd ‹_› stood
          · split at made
            · cases made
            · rename_i notBlocked
              exact isBlocked_eq_false_iff.1 (by simpa using notBlocked) _
                (mem_above isAbove same)
    obtain ⟨entry, found⟩ := Option.isSome_iff_exists.1 (reaches h place isAbove)
    cases entry with
    | file content =>
        rw [file?_eq_some_iff.2 found] at noFile
        cases noFile
    | directory => exact found
  · rename_i outside
    exact (adds place).resolve_right fun new => outside new.2.2

/-- Moving comes to the same where the trees agree at and below the source and at the target, whose
place is in the directory that both have or lack.
-/
theorem Agree.move (agree : Agree fixed first second) (wellFormed : first.WellFormed)
    (wellFormed' : second.WellFormed) {source target : Location}
    (isSource : ∀ names, fixed (source ++ names)) (isFixed : fixed target)
    (isFixed' : fixed target.dropLast)
    : Related (Agree fixed) (first.move source target) (second.move source target) := by
  have isFixed'' : fixed source := by simpa using isSource []
  have same : (second.move source target).map (fun _ => ())
      = (first.move source target).map (fun _ => ()) := by
    rw [FileTree.move, FileTree.move, agree.find_eq isFixed'', agree.checkParent_eq isFixed',
      agree.entry? target isFixed]
    split
    · rfl
    · rfl
    · split
      · rfl
      · split <;> rfl
  rcases moved : first.move source target with errno | tree <;>
    rcases moved' : second.move source target with errno' | tree' <;>
    rw [moved, moved'] at same <;>
    cases same
  · exact .error errno
  · have free := (apart_of_move moved).2.1
    have free' := (apart_of_move moved').2.1
    have stands := entry?_move moved fun _ => wellFormed.none_below free
    have stands' := entry?_move moved' fun _ => wellFormed'.none_below free'
    refine .ok ⟨fun place isFixed => ?_, fun place names isFixed => ?_⟩
    · rw [stands, stands', agree.entry? _ (isSource _), agree.entry? place isFixed]
    · rw [FileTree.file?, FileTree.file?, stands, stands', agree.entry? _ (isSource _)]
      by_cases isTarget : target <+: place
      · rw [if_pos isTarget, if_pos isTarget]
      · rw [if_neg isTarget, if_neg isTarget]
        by_cases isMoved : source <+: place
        · rw [if_pos isMoved, if_pos isMoved]
        · rw [if_neg isMoved, if_neg isMoved]
          exact agree.file? place names isFixed

end FileTree

-----------------------------------------------------------------------------------------
-- Workspaces
-----------------------------------------------------------------------------------------

open FileTree (Agree)
open Outcome (Related)

variable {ε ε' α β : Type} {fixed : Location → Prop} {first second : Workspace}

/-- Two workspaces with well-formed trees that have the same entries at some places, and the same
files above them.
-/
structure Alike (fixed : Location → Prop) (first second : Workspace) : Prop where
  directory : second.directory = first.directory
  wellFormed : first.tree.WellFormed
  wellFormed' : second.tree.WellFormed
  agree : Agree fixed first.tree second.tree

/-- An action comes to the same in workspaces that are alike, which stay alike. -/
def RunsAlike (fixed : Location → Prop) (action : ExceptT ε (StateM Workspace) α) : Prop :=
  ∀ first second, Alike fixed first second →
    (outcome action second).1 = (outcome action first).1
    ∧ Alike fixed (outcome action first).2 (outcome action second).2

theorem runsAlike_pure (value : α)
    : RunsAlike fixed (pure value : ExceptT ε (StateM Workspace) α) :=
  fun _ _ alike => ⟨rfl, alike⟩

theorem runsAlike_throw (fault : ε)
    : RunsAlike fixed (throw fault : ExceptT ε (StateM Workspace) α) :=
  fun _ _ alike => ⟨rfl, alike⟩

theorem RunsAlike.bind {action : ExceptT ε (StateM Workspace) α}
    {next : α → ExceptT ε (StateM Workspace) β} (h : RunsAlike fixed action)
    (h' : ∀ value, RunsAlike fixed (next value))
    : RunsAlike fixed (action >>= next) := by
  intro first second alike
  obtain ⟨same, alike⟩ := h first second alike
  rw [outcome_bind, outcome_bind]
  generalize outcome action first = found at same alike ⊢
  generalize outcome action second = found' at same alike ⊢
  obtain ⟨result, after⟩ := found
  obtain ⟨result', after'⟩ := found'
  obtain rfl : result' = result := same
  cases result' with
  | error fault => exact ⟨rfl, alike⟩
  | ok value => exact h' value after after' alike

theorem RunsAlike.adapt {action : ExceptT ε (StateM Workspace) α} (h : RunsAlike fixed action)
    (f : ε → ε')
    : RunsAlike fixed (action.adapt f) := by
  intro first second alike
  obtain ⟨same, alike⟩ := h first second alike
  rw [outcome_adapt, outcome_adapt, same]
  exact ⟨rfl, alike⟩

theorem RunsAlike.attempt {action : ExceptT ε (StateM Workspace) α} (h : RunsAlike fixed action)
    : RunsAlike fixed (attempt action : ExceptT ε' (StateM Workspace) _) := by
  intro first second alike
  obtain ⟨same, alike⟩ := h first second alike
  rw [outcome_attempt, outcome_attempt, same]
  exact ⟨rfl, alike⟩

/-- What all items come to, by induction on the items. -/
theorem RunsAlike.forM {action : α → ExceptT ε (StateM Workspace) PUnit} {items : List α}
    (h : ∀ item ∈ items, RunsAlike fixed (action item))
    : RunsAlike fixed (items.forM action) := by
  induction items with
  | nil => exact runsAlike_pure _
  | cons item items ih =>
      exact (h item (List.mem_cons_self ..)).bind fun _ =>
        ih fun other member => h other (List.mem_cons_of_mem _ member)

/-- Every change of the tree is allowed. -/
def anywhere : FileTree.Touched := ⟨fun _ => True, fun _ => True⟩

theorem Keeps.wellFormed {action : ExceptT ε (StateM Workspace) α}
    (h : ∀ before, Keeps (Edited anywhere before) action) (wellFormed : first.tree.WellFormed)
    : (outcome action first).2.tree.WellFormed :=
  (h first first (.refl _ _)).edits.wellFormed wellFormed

/-- A change comes to the same where the steps do. -/
theorem runsAlike_change {action : String} {step : Workspace → Except Errno FileTree}
    (keeps : ∀ before, Keeps (Edited anywhere before) (change action step))
    (same : ∀ first second, Alike fixed first second →
      Related (Agree fixed) (step first) (step second))
    : RunsAlike fixed (change action step) := by
  intro first second alike
  have kept := Keeps.wellFormed keeps alike.wellFormed
  have kept' := Keeps.wellFormed keeps alike.wellFormed'
  have stepped := same first second alike
  rw [outcome_change] at kept kept' ⊢
  rw [outcome_change]
  generalize step first = result at stepped kept
  generalize step second = result' at stepped kept'
  cases stepped with
  | error errno => exact ⟨rfl, alike⟩
  | ok agree => exact ⟨rfl, alike.directory, kept, kept', agree⟩

-----------------------------------------------------------------------------------------
-- The operations
-----------------------------------------------------------------------------------------

section

variable {path : String} {location : Location} (spells : PathText.Spells path location)

include spells

theorem Alike.find_eq (alike : Alike fixed first second) (isFixed : fixed location)
    : second.find path = first.find path := by
  rw [Workspace.find_of_spells spells, Workspace.find_of_spells spells,
    alike.agree.find_eq isFixed]

theorem runsAlike_read (isFixed : fixed location)
    : RunsAlike fixed (Disk.read path : ExceptT Fault (StateM Workspace) Bytes) := by
  intro first second alike
  have same := alike.find_eq spells isFixed
  rw [readsOnly_read path first, readsOnly_read path second]
  refine ⟨?_, alike⟩
  simp only [Disk.read, outcome_bind, outcome_get, outcome_orFault, same]
  rcases first.find path with _ | _ | _ <;> rfl

theorem runsAlike_makeDirectories {names : Location} (isAbove : fixed (location ++ names))
    : RunsAlike fixed (Disk.makeDirectories path) := by
  intro first second alike
  have keeps (before : Workspace) : Keeps (Edited anywhere before) (Disk.makeDirectories path) :=
    keeps_edited_makeDirectories spells fun _ _ => trivial
  have kept := Keeps.wellFormed keeps alike.wellFormed
  have kept' := Keeps.wellFormed keeps alike.wellFormed'
  have result := alike.wellFormed.makeDirectories_eq location
  have result' := alike.wellFormed'.makeDirectories_eq location
  rw [alike.agree.file? location names isAbove, alike.agree.isBlocked_eq isAbove, ← result]
    at result'
  rw [outcome_makeDirectories_of_spells spells] at kept kept' ⊢
  rw [outcome_makeDirectories_of_spells spells]
  rcases made : first.tree.makeDirectories location with errno | tree <;>
    rcases made' : second.tree.makeDirectories location with errno' | tree' <;>
    rw [made, made'] at result' <;>
    cases result'
  · exact ⟨rfl, alike⟩
  · rw [made] at kept
    rw [made'] at kept'
    refine ⟨rfl, alike.directory, kept, kept', ?_⟩
    have stands := alike.wellFormed.entry?_of_makeDirectories made
    have stands' := alike.wellFormed'.entry?_of_makeDirectories made'
    obtain ⟨adds, _⟩ := FileTree.addsFolders_of_makeDirectories made
    obtain ⟨adds', _⟩ := FileTree.addsFolders_of_makeDirectories made'
    refine ⟨fun place isFixed => ?_, fun place names isFixed => ?_⟩
    · rw [stands, stands', alike.agree.entry? place isFixed]
    · rw [adds.file?_eq, adds'.file?_eq, alike.agree.file? place names isFixed]

theorem Alike.writeFile (alike : Alike fixed first second) (isFixed : fixed location)
    (isFixed' : fixed location.dropLast) (content : Bytes)
    : Related (Agree fixed) (first.writeFile path content) (second.writeFile path content) := by
  have same := alike.agree.writeFile isFixed isFixed' content
  rw [Workspace.writeFile_of_spells spells, Workspace.writeFile_of_spells spells,
    alike.agree.checkParent_eq isFixed']
  split
  · rcases first.tree.checkParent location with errno | _ <;> exact .error _
  · exact same

theorem runsAlike_writing (action : String) (isFixed : fixed location)
    (isFixed' : fixed location.dropLast) (content : Bytes)
    : RunsAlike fixed (change action fun workspace => workspace.writeFile path content) :=
  runsAlike_change (fun _ => keeps_edited_writing spells action trivial content)
    fun _ _ alike => alike.writeFile spells isFixed isFixed' content

theorem runsAlike_write (isFixed : fixed location) (isFixed' : fixed location.dropLast)
    (content : Bytes)
    : RunsAlike fixed (Disk.write path content) :=
  runsAlike_writing spells _ isFixed isFixed' content

/-- Copying comes to the same where what is copied is the same, too. -/
theorem runsAlike_copy (isFixed : fixed location) (isFixed' : fixed location.dropLast)
    {source : String} {origin : Location} (spells' : PathText.Spells source origin)
    (isSource : fixed origin)
    : RunsAlike fixed (Disk.copy source path) := by
  intro first second alike
  have keeps (before : Workspace) : Keeps (Edited anywhere before) (Disk.copy source path) :=
    keeps_edited_copy spells trivial trivial source
  have kept := Keeps.wellFormed keeps alike.wellFormed
  have kept' := Keeps.wellFormed keeps alike.wellFormed'
  have found := alike.find_eq spells' isSource
  have written := alike.writeFile spells isFixed isFixed' []
  simp only [Disk.copy, Workspace.copy, outcome_bind, outcome_get, outcome_orFault, found]
    at kept kept' ⊢
  generalize first.find source = entry at kept kept' ⊢
  rcases entry with errno | content | _
  · exact ⟨rfl, alike⟩
  · exact runsAlike_writing spells _ isFixed isFixed' content first second alike
  · generalize first.writeFile path [] = result at written kept kept' ⊢
    generalize second.writeFile path [] = result' at written kept kept' ⊢
    cases written with
    | error errno => exact ⟨rfl, alike⟩
    | ok _ =>
        refine ⟨rfl, alike.directory, kept, kept', ?_⟩
        simp only [Except.mapError, outcome_bind, outcome_set, outcome_orFault,
          Workspace.locate_of_spells spells]
        exact alike.agree.remove location

theorem runsAlike_remove (isFixed : fixed location)
    : RunsAlike fixed (Disk.remove path) := by
  intro first second alike
  have found := alike.find_eq spells isFixed
  simp only [Disk.remove, outcome_bind, outcome_get, found]
  have discards (action : String) : RunsAlike fixed (change action fun workspace =>
      workspace.tree.discard (workspace.locate path)) := by
    refine runsAlike_change (fun before workspace edited => ?_) fun first second alike => ?_
    · rcases removed : outcome (change action _) workspace with ⟨fault | _, after⟩
      · cases change_eq_error removed
        exact edited
      · obtain ⟨tree, discarded, rfl⟩ := change_eq_ok.1 removed
        obtain ⟨_, rfl⟩ := FileTree.discard_eq_ok_iff.1 discarded
        exact edited.then (.single (.remove trivial))
    · rw [Workspace.locate_of_spells spells, Workspace.locate_of_spells spells, FileTree.discard,
        FileTree.discard]
      split
      · exact .error _
      · exact .ok (alike.agree.remove location)
  rcases first.find path with errno | _
  · cases errno <;> exact ⟨rfl, alike⟩
  · exact discards _ first second alike

theorem runsAlike_makeParents (isFixed : fixed location.dropLast)
    : RunsAlike fixed (Disk.makeDirectories (PathText.parent path)) := by
  rw [spells.parent_eq]
  exact runsAlike_makeDirectories (PathText.spells_absolute spells.named.dropLast)
    (show fixed (location.dropLast ++ []) by rwa [List.append_nil])

theorem runsAlike_writeText (isFixed : fixed location) (isFixed' : fixed location.dropLast)
    (text : String)
    : RunsAlike fixed (writeText path text) :=
  (runsAlike_makeParents spells isFixed').bind fun _ => runsAlike_write spells isFixed isFixed' _

theorem runsAlike_copyFile (isFixed : fixed location) (isFixed' : fixed location.dropLast)
    {source : String} {origin : Location} (spells' : PathText.Spells source origin)
    (isSource : fixed origin)
    : RunsAlike fixed (copyFile source path) :=
  (runsAlike_makeParents spells isFixed').bind fun _ =>
    runsAlike_copy spells isFixed isFixed' spells' isSource

theorem runsAlike_move {source : String} {origin : Location}
    (spells' : PathText.Spells source origin) (isSource : ∀ names, fixed (origin ++ names))
    (isFixed : fixed location) (isFixed' : fixed location.dropLast)
    : RunsAlike fixed (Disk.move source path) := by
  refine runsAlike_change (fun _ => keeps_edited_move spells spells' trivial trivial) ?_
  intro first second alike
  rw [Workspace.checkWay_trimmed spells, Workspace.checkWay_trimmed spells,
    Workspace.checkWay_trimmed spells', Workspace.checkWay_trimmed spells',
    Workspace.locate_of_spells spells, Workspace.locate_of_spells spells,
    Workspace.locate_of_spells spells', Workspace.locate_of_spells spells']
  exact alike.agree.move alike.wellFormed alike.wellFormed' isSource isFixed isFixed'

theorem runsAlike_replaceFolder {source : String} {origin : Location}
    (spells' : PathText.Spells source origin) (isSource : ∀ names, fixed (origin ++ names))
    (isFixed : fixed location) (isFixed' : fixed location.dropLast)
    : RunsAlike fixed (replaceFolder source path) :=
  (runsAlike_remove spells isFixed).bind fun _ =>
    (runsAlike_makeParents spells isFixed').bind fun _ =>
      runsAlike_move spells spells' isSource isFixed isFixed'

end

end Stencil.Files
