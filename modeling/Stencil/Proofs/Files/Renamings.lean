import Stencil.Proofs.Files.AlikeRuns
import Stencil.Proofs.Files.Staging

/-! Runs under other names. An action that works in a directory comes to the same when that directory
has another name: the tree after it is the same but for the name, and so is the text of a fault.
-/

namespace Stencil.Files

-----------------------------------------------------------------------------------------
-- Texts
-----------------------------------------------------------------------------------------

/-- Two texts that are the same but for a name in the one and another name in its place. -/
inductive SameBut (name name' : String) : String → String → Prop
  | same (text : String) : SameBut name name' text text
  | here : SameBut name name' name name'
  | append {start start' rest rest' : String} (first : SameBut name name' start start')
    (second : SameBut name name' rest rest')
    : SameBut name name' (start ++ rest) (start' ++ rest')

variable {name name' : String}

theorem SameBut.actionOn {path path' : String} (h : SameBut name name' path path')
    (operation : String)
    : SameBut name name' (actionOn operation path) (actionOn operation path') :=
  ((SameBut.same _).append h).append (.same _)

theorem SameBut.actionFromTo {source source' target target' : String}
    (h : SameBut name name' source source') (h' : SameBut name name' target target')
    (operation : String)
    : SameBut name name' (actionFromTo operation source target)
        (actionFromTo operation source' target') :=
  (((h.actionOn operation).append (.same _)).append h').append (.same _)

/-- Two faults that are the same but for a name in what was being done. -/
structure SameFault (name name' : String) (fault fault' : Fault) : Prop where
  errno : fault'.errno = fault.errno
  action : SameBut name name' fault.action fault'.action

theorem SameFault.message {fault fault' : Fault} (h : SameFault name name' fault fault')
    : SameBut name name' fault.message fault'.message := by
  rw [Fault.message, Fault.message, h.errno]
  exact (SameBut.same _).append h.action

/-- The texts of two locations that differ in one name are the same but for that. -/
theorem sameBut_absolute (parent names : Location) (name name' : String)
    : SameBut name name' (PathText.absolute (parent ++ [name] ++ names))
        (PathText.absolute (parent ++ [name'] ++ names)) := by
  obtain ⟨lead, _, eq⟩ := PathText.exists_lead_of_join parent
  have join (name : String) : PathText.join (parent ++ [name]) = String.ofList lead ++ name := by
    rw [← String.toList_inj, eq, String.toList_append, String.toList_ofList]
  have same : SameBut name name' (PathText.join (parent ++ [name]))
      (PathText.join (parent ++ [name'])) := by
    rw [join, join]
    exact (SameBut.same _).append .here
  refine (SameBut.same _).append ?_
  by_cases atEnd : names = []
  · simpa [atEnd] using same
  · have below (name : String)
        : PathText.join (parent ++ [name] ++ names)
          = PathText.join (parent ++ [name]) ++ ("/" ++ PathText.join names) := by
      rw [← String.toList_inj, PathText.toList_join_append (List.concat_ne_nil _ _) atEnd]
      simp
    rw [below, below]
    exact same.append (.same _)

-----------------------------------------------------------------------------------------
-- Renamings
-----------------------------------------------------------------------------------------

/-- A renaming of locations: what is below a location goes below the renamed location. -/
structure IsRenaming (rename : Location → Location) : Prop where
  named {location : Location} : location.Named → (rename location).Named
  length_eq (location : Location) : (rename location).length = location.length
  prefix_iff {first second : Location} : rename first <+: rename second ↔ first <+: second

section

variable {rename : Location → Location} (h : IsRenaming rename)

include h

theorem IsRenaming.injective : Function.Injective rename := by
  intro first second same
  have isPrefix : first <+: second := h.prefix_iff.1 (same ▸ List.prefix_rfl)
  refine isPrefix.eq_of_length ?_
  rw [← h.length_eq, same, h.length_eq]

theorem IsRenaming.isPrefixOf_eq (first second : Location)
    : (rename first).isPrefixOf (rename second) = first.isPrefixOf second := by
  rw [Bool.eq_iff_iff, List.isPrefixOf_iff_prefix, List.isPrefixOf_iff_prefix, h.prefix_iff]

theorem IsRenaming.beq_eq (first second : Location)
    : (rename first == rename second) = (first == second) := by
  rw [Bool.eq_iff_iff, beq_iff_eq, beq_iff_eq, h.injective.eq_iff]

theorem IsRenaming.eq_nil_iff {location : Location} : rename location = [] ↔ location = [] := by
  rw [← List.length_eq_zero_iff, h.length_eq, List.length_eq_zero_iff]

/-- A place in a directory is renamed to a place in the renamed directory. -/
theorem IsRenaming.exists_concat (location : Location) (name : String)
    : ∃ name', rename (location ++ [name]) = rename location ++ [name'] := by
  have isPrefix : rename location <+: rename (location ++ [name]) :=
    h.prefix_iff.2 (List.prefix_append _ _)
  obtain ⟨rest, eq⟩ := isPrefix
  have one := congrArg List.length eq
  rw [List.length_append, h.length_eq, h.length_eq, List.length_append, List.length_singleton,
    Nat.add_left_cancel_iff, List.length_eq_one_iff] at one
  obtain ⟨name', rfl⟩ := one
  exact ⟨name', eq.symm⟩

theorem IsRenaming.dropLast_eq (location : Location)
    : (rename location).dropLast = rename location.dropLast := by
  rcases List.eq_nil_or_concat location with rfl | ⟨above, name, rfl⟩
  · rw [h.eq_nil_iff.2 rfl, List.dropLast_nil, h.eq_nil_iff.2 rfl]
  · obtain ⟨name', eq⟩ := h.exists_concat above name
    rw [List.concat_eq_append, eq, List.dropLast_concat, List.dropLast_concat]

theorem IsRenaming.above_eq (location : Location)
    : FileTree.above (rename location) = (FileTree.above location).map rename := by
  have concat (place : Location) (name : String)
      : FileTree.above (place ++ [name]) = FileTree.above place ++ [place] := by
    have whole := FileTree.above_concat (place ++ [name])
    rw [List.inits_append, ← FileTree.above_concat place] at whole
    exact List.append_cancel_right whole
  induction location using List.reverseRecOn with
  | nil =>
      rw [h.eq_nil_iff.2 rfl]
      rfl
  | append_singleton place name ih =>
      obtain ⟨name', eq⟩ := h.exists_concat place name
      rw [eq, concat, concat, ih, List.map_append, List.map_singleton]

end

/-- What stands at a location, at the renamed location. -/
def renamedEntry (rename : Location → Location) (other : Location × Entry) : Location × Entry :=
  (rename other.1, other.2)

/-- A tree with all that stands in it at renamed locations. -/
def FileTree.renamed (rename : Location → Location) (tree : FileTree) : FileTree :=
  ⟨tree.entries.map (renamedEntry rename)⟩

/-- A workspace with a renamed tree. -/
def Workspace.renamed (rename : Location → Location) (workspace : Workspace) : Workspace :=
  { workspace with tree := workspace.tree.renamed rename }

namespace FileTree

variable {rename : Location → Location} (h : IsRenaming rename) {tree : FileTree}
  {location : Location}

include h

theorem entry?_renamed (tree : FileTree) (location : Location)
    : FileTree.entry? (tree.renamed rename) (rename location) = tree.entry? location := by
  unfold entry?
  simp only [h.eq_nil_iff]
  congr 1
  obtain ⟨entries⟩ := tree
  rw [renamed]
  induction entries with
  | nil => rfl
  | cons other entries ih =>
      rw [List.map_cons, List.lookup_cons, List.lookup_cons, renamedEntry, h.beq_eq]
      split
      · rfl
      · exact ih

theorem isBlocked_renamed (tree : FileTree) (location : Location)
    : (tree.renamed rename).isBlocked (rename location) = tree.isBlocked location := by
  rw [isBlocked, isBlocked, h.above_eq, List.any_map]
  congr 1
  funext place
  rw [Function.comp_apply, entry?_renamed h]

theorem find_renamed (tree : FileTree) (location : Location)
    : (tree.renamed rename).find (rename location) = tree.find location := by
  rw [find, find, entry?_renamed h, isBlocked_renamed h]

theorem checkParent_renamed (tree : FileTree) (location : Location)
    : (tree.renamed rename).checkParent (rename location) = tree.checkParent location := by
  rw [checkParent, checkParent, checkDirectory, checkDirectory, h.dropLast_eq, find_renamed h]

theorem put_renamed (tree : FileTree) (location : Location) (entry : Entry)
    : (tree.renamed rename).put (rename location) entry
      = (tree.put location entry).renamed rename := by
  have kept : (fun other => other.1 != rename location) ∘ renamedEntry rename
      = fun other => other.1 != location :=
    funext fun other => congrArg (!·) (h.beq_eq other.1 location)
  simp only [put, renamed, List.map_cons, List.filter_map, kept]
  rfl

theorem remove_renamed (tree : FileTree) (location : Location)
    : (tree.renamed rename).remove (rename location)
      = (tree.remove location).renamed rename := by
  have kept : (fun other => !(rename location).isPrefixOf other.1) ∘ renamedEntry rename
      = fun other => !location.isPrefixOf other.1 :=
    funext fun other => congrArg (!·) (h.isPrefixOf_eq location other.1)
  simp only [remove, renamed, List.filter_map, kept]

theorem writeFile_renamed (tree : FileTree) (location : Location) (content : Bytes)
    : (tree.renamed rename).writeFile (rename location) content
      = (tree.writeFile location content).map (renamed rename) := by
  rw [writeFile, writeFile, entry?_renamed h, checkParent_renamed h, put_renamed h]
  rcases tree.entry? location with _ | _ | _
  · rcases tree.checkParent location with _ | _ <;> rfl
  · rfl
  · rfl

theorem makeDirectories_renamed (tree : FileTree) (location : Location)
    : (tree.renamed rename).makeDirectories (rename location)
      = (tree.makeDirectories location).map (renamed rename) := by
  have each (places : List Location) (tree : FileTree)
      : (places.map rename).foldl (fun tree place =>
          if (tree.entry? place).isSome then tree else tree.put place .directory)
          (tree.renamed rename)
        = (places.foldl (fun tree place =>
          if (tree.entry? place).isSome then tree else tree.put place .directory)
          tree).renamed rename := by
    induction places generalizing tree with
    | nil => rfl
    | cons place places ih =>
        rw [List.map_cons, List.foldl_cons, List.foldl_cons, entry?_renamed h, put_renamed h, ← ih]
        split <;> rfl
  have whole := each (above location ++ [location]) tree
  rw [List.map_append, List.map_singleton, ← h.above_eq] at whole
  rw [makeDirectories, makeDirectories, entry?_renamed h, isBlocked_renamed h, whole]
  rcases tree.entry? location with _ | _ | _
  · by_cases blocked : tree.isBlocked location
    · simp [blocked, Except.map]
    · simp [blocked, Except.map]
  · rfl
  · rfl

/-- What moves takes its names along, where what is below its old and its new place keeps its names
from there on.
-/
theorem move_renamed {source target : Location}
    (whole : ∀ names, rename (source ++ names) = rename source ++ names)
    (whole' : ∀ names, rename (target ++ names) = rename target ++ names)
    : (tree.renamed rename).move (rename source) (rename target)
      = (tree.move source target).map (renamed rename) := by
  have moves (place : Location) (entry : Entry)
      : (if (rename source).isPrefixOf (rename place) then
          (rename target ++ (rename place).drop (rename source).length, entry)
        else (rename place, entry))
        = renamedEntry rename
          (if source.isPrefixOf place then (target ++ place.drop source.length, entry)
          else (place, entry)) := by
    rw [h.isPrefixOf_eq]
    by_cases isMoved : source <+: place
    · obtain ⟨rest, rfl⟩ := isMoved
      simp [renamedEntry, whole, whole']
    · simp [renamedEntry, isMoved]
  rw [move, move, find_renamed h, checkParent_renamed h, entry?_renamed h, h.isPrefixOf_eq]
  rcases tree.find source with _ | _
  · rfl
  rcases tree.checkParent target with _ | _
  · rfl
  by_cases inside : source.isPrefixOf target
  · simp only [inside, if_true]
    rfl
  by_cases stands : (tree.entry? target).isSome
  · simp only [inside, stands, if_true]
    rfl
  · simp only [inside, stands]
    refine congrArg (fun entries => Except.ok (FileTree.mk entries)) ?_
    rw [renamed, List.map_map, List.map_map]
    exact List.map_congr_left fun other _ => moves other.1 other.2

theorem WellFormed.renamed (wellFormed : tree.WellFormed) : (tree.renamed rename).WellFormed := by
  have locations : (tree.renamed rename).entries.map Prod.fst
      = (tree.entries.map Prod.fst).map rename := by
    rw [FileTree.renamed, List.map_map, List.map_map]
    rfl
  refine ⟨?_, fun entry member => ?_, fun entry member => ?_, fun entry member => ?_⟩
  · rw [locations]
    exact wellFormed.distinct.map h.injective
  all_goals obtain ⟨other, isOther, rfl⟩ := List.mem_map.1 member
  · exact mt h.eq_nil_iff.1 (wellFormed.nonempty other isOther)
  · exact h.named (wellFormed.named other isOther)
  · rw [renamedEntry, h.dropLast_eq, entry?_renamed h]
    exact wellFormed.inFolders other isOther

end FileTree

-----------------------------------------------------------------------------------------
-- Two paths
-----------------------------------------------------------------------------------------

section

variable {rename : Location → Location}

/-- Two paths, the same but for a name, of which the one leads to a location and the other one to the
renamed location.
-/
structure Twins (rename : Location → Location) (name name' : String) (location : Location)
    (path path' : String) : Prop where
  spells : PathText.Spells path location
  spells' : PathText.Spells path' (rename location)
  slash : Workspace.endsWithSlash path' = Workspace.endsWithSlash path
  text : SameBut name name' path path'

/-- A path to a location that keeps its names. -/
theorem twins_self {location : Location} {path : String} (spells : PathText.Spells path location)
    (same : rename location = location) (name name' : String)
    : Twins rename name name' location path path :=
  ⟨spells, same.symm ▸ spells, rfl, .same _⟩

theorem twins_absolute (h : IsRenaming rename) {location : Location} (named : location.Named)
    (text : SameBut name name' (PathText.absolute location)
      (PathText.absolute (rename location)))
    : Twins rename name name' location (PathText.absolute location)
        (PathText.absolute (rename location)) := by
  refine ⟨PathText.spells_absolute named, PathText.spells_absolute (h.named named), ?_, text⟩
  by_cases atTop : location = []
  · rw [atTop, h.eq_nil_iff.2 rfl]
  · rw [PathText.endsWithSlash_absolute named atTop,
      PathText.endsWithSlash_absolute (h.named named) (mt h.eq_nil_iff.1 atTop)]

-----------------------------------------------------------------------------------------
-- Runs
-----------------------------------------------------------------------------------------

/-- The same value, or causes that are related. -/
inductive Matched {ε ε' α : Type} (R : ε → ε' → Prop) : Except ε α → Except ε' α → Prop
  | ok (value : α) : Matched R (.ok value) (.ok value)
  | error {cause : ε} {cause' : ε'} (related : R cause cause')
    : Matched R (.error cause) (.error cause')

variable {ε ε' δ δ' α β : Type}

theorem Matched.mapError {R : ε → ε' → Prop} {S : δ → δ' → Prop} {result : Except ε α}
    {result' : Except ε' α} (h : Matched R result result') {f : ε → δ} {f' : ε' → δ'}
    (related : ∀ cause cause', R cause cause' → S (f cause) (f' cause'))
    : Matched S (result.mapError f) (result'.mapError f') := by
  cases h with
  | ok value => exact .ok value
  | error h => exact .error (related _ _ h)

/-- What an action comes to in a workspace, another one comes to in the renamed workspace. -/
def RunsRenamed (rename : Location → Location) (R : ε → ε' → Prop)
    (action : ExceptT ε (StateM Workspace) α) (action' : ExceptT ε' (StateM Workspace) α)
    : Prop :=
  ∀ workspace,
    Matched R (outcome action workspace).1 (outcome action' (workspace.renamed rename)).1
    ∧ (outcome action' (workspace.renamed rename)).2
      = (outcome action workspace).2.renamed rename

variable {R : ε → ε' → Prop}

theorem runsRenamed_pure (value : α)
    : RunsRenamed rename R (pure value : ExceptT ε (StateM Workspace) α)
        (pure value : ExceptT ε' (StateM Workspace) α) :=
  fun _ => ⟨.ok value, rfl⟩

theorem runsRenamed_throw {cause : ε} {cause' : ε'} (related : R cause cause')
    : RunsRenamed rename R (throw cause : ExceptT ε (StateM Workspace) α)
        (throw cause' : ExceptT ε' (StateM Workspace) α) :=
  fun _ => ⟨.error related, rfl⟩

theorem RunsRenamed.bind {action : ExceptT ε (StateM Workspace) α}
    {action' : ExceptT ε' (StateM Workspace) α} {next : α → ExceptT ε (StateM Workspace) β}
    {next' : α → ExceptT ε' (StateM Workspace) β} (h : RunsRenamed rename R action action')
    (h' : ∀ value, RunsRenamed rename R (next value) (next' value))
    : RunsRenamed rename R (action >>= next) (action' >>= next') := by
  intro workspace
  obtain ⟨matched, after⟩ := h workspace
  rw [outcome_bind, outcome_bind]
  generalize outcome action workspace = found at matched after ⊢
  generalize outcome action' (workspace.renamed rename) = found' at matched after ⊢
  obtain ⟨result, middle⟩ := found
  obtain ⟨result', middle'⟩ := found'
  obtain rfl : middle' = middle.renamed rename := after
  cases matched with
  | ok value => exact h' value middle
  | error related => exact ⟨.error related, rfl⟩

theorem RunsRenamed.adapt {S : δ → δ' → Prop} {action : ExceptT ε (StateM Workspace) α}
    {action' : ExceptT ε' (StateM Workspace) α} (h : RunsRenamed rename R action action')
    {f : ε → δ} {f' : ε' → δ'} (related : ∀ cause cause', R cause cause' → S (f cause) (f' cause'))
    : RunsRenamed rename S (action.adapt f) (action'.adapt f') :=
  fun workspace => ⟨(h workspace).1.mapError related, (h workspace).2⟩

/-- What follows an attempt has to deal with all that this may come to. -/
theorem RunsRenamed.attempt_bind {S : δ → δ' → Prop} {action : ExceptT ε (StateM Workspace) α}
    {action' : ExceptT ε' (StateM Workspace) α} (h : RunsRenamed rename R action action')
    {next : Except ε α → ExceptT δ (StateM Workspace) β}
    {next' : Except ε' α → ExceptT δ' (StateM Workspace) β}
    (h' : ∀ result result', Matched R result result' →
      RunsRenamed rename S (next result) (next' result'))
    : RunsRenamed rename S (attempt action >>= next) (attempt action' >>= next') := by
  intro workspace
  obtain ⟨matched, after⟩ := h workspace
  rw [outcome_bind, outcome_bind, outcome_attempt, outcome_attempt, after]
  exact h' _ _ matched _

theorem RunsRenamed.forM {action : β → ExceptT ε (StateM Workspace) PUnit}
    {action' : β → ExceptT ε' (StateM Workspace) PUnit} {items : List β}
    (h : ∀ item ∈ items, RunsRenamed rename R (action item) (action' item))
    : RunsRenamed rename R (items.forM action) (items.forM action') := by
  induction items with
  | nil => exact runsRenamed_pure _
  | cons item items ih =>
      exact (h item (.head _)).bind fun _ => ih fun other member => h other (.tail _ member)

/-- A change matches another one where the steps give the same tree but for the names. -/
theorem runsRenamed_change {action action' : String} {step step' : Workspace → Except Errno FileTree}
    (text : SameBut name name' action action')
    (steps : ∀ workspace, step' (workspace.renamed rename)
      = (step workspace).map (FileTree.renamed rename))
    : RunsRenamed rename (SameFault name name') (change action step) (change action' step') := by
  intro workspace
  rw [outcome_change, outcome_change, steps]
  rcases step workspace with errno | tree
  · exact ⟨.error ⟨rfl, text⟩, rfl⟩
  · exact ⟨.ok (), rfl⟩

-----------------------------------------------------------------------------------------
-- The operations
-----------------------------------------------------------------------------------------

variable (h : IsRenaming rename) {location : Location} {path path' : String}
  (twins : Twins rename name name' location path path')

include h twins

theorem Twins.find_eq (workspace : Workspace)
    : (workspace.renamed rename).find path' = workspace.find path := by
  rw [Workspace.find_of_spells twins.spells, Workspace.find_of_spells twins.spells', twins.slash,
    Workspace.renamed, FileTree.find_renamed h]

theorem Twins.writeFile_eq (workspace : Workspace) (content : Bytes)
    : (workspace.renamed rename).writeFile path' content
      = (workspace.writeFile path content).map (FileTree.renamed rename) := by
  rw [Workspace.writeFile_of_spells twins.spells, Workspace.writeFile_of_spells twins.spells',
    twins.slash, Workspace.renamed, FileTree.checkParent_renamed h, FileTree.writeFile_renamed h]
  split
  · rcases workspace.tree.checkParent location with _ | _ <;> rfl
  · rfl

theorem runsRenamed_write (content : Bytes)
    : RunsRenamed rename (SameFault name name') (Disk.write path content)
        (Disk.write path' content) :=
  runsRenamed_change (twins.text.actionOn "open") fun workspace => twins.writeFile_eq h workspace _

theorem runsRenamed_makeDirectories
    : RunsRenamed rename (SameFault name name') (Disk.makeDirectories path)
        (Disk.makeDirectories path') := by
  intro workspace
  rw [outcome_makeDirectories_of_spells twins.spells,
    outcome_makeDirectories_of_spells twins.spells', twins.slash, Workspace.renamed,
    FileTree.makeDirectories_renamed h]
  rcases workspace.tree.makeDirectories location with errno | tree
  · exact ⟨.error ⟨rfl, twins.text.actionOn "mkdir"⟩, rfl⟩
  · exact ⟨.ok (), rfl⟩

theorem runsRenamed_remove
    : RunsRenamed rename (SameFault name name') (Disk.remove path) (Disk.remove path') := by
  have discards : RunsRenamed rename (SameFault name name')
      (change (actionOn "rmdir" path) fun workspace =>
        workspace.tree.discard (workspace.locate path))
      (change (actionOn "rmdir" path') fun workspace =>
        workspace.tree.discard (workspace.locate path')) := by
    refine runsRenamed_change (twins.text.actionOn "rmdir") fun workspace => ?_
    rw [Workspace.locate_of_spells twins.spells, Workspace.locate_of_spells twins.spells',
      FileTree.discard, FileTree.discard, Workspace.renamed, FileTree.remove_renamed h]
    simp only [h.eq_nil_iff]
    split <;> rfl
  intro workspace
  simp only [Disk.remove, outcome_bind, outcome_get, twins.find_eq h]
  rcases workspace.find path with errno | _
  · cases errno <;>
      first
      | exact ⟨.ok (), rfl⟩
      | exact ⟨.error ⟨rfl, twins.text.actionOn "lstat"⟩, rfl⟩
  · exact discards workspace

/-- A file is copied to a renamed place. -/
theorem runsRenamed_copy {source source' : String} {origin : Location}
    (twins' : Twins rename name name' origin source source')
    : RunsRenamed rename (SameFault name name') (Disk.copy source path)
        (Disk.copy source' path') := by
  have text := twins'.text.actionFromTo twins.text "copyfile"
  intro workspace
  simp only [Disk.copy, Workspace.copy, outcome_bind, outcome_get, outcome_orFault,
    twins'.find_eq h]
  rcases workspace.find source with errno | content | _
  · exact ⟨.error ⟨rfl, text⟩, rfl⟩
  · exact runsRenamed_change text (fun workspace => twins.writeFile_eq h workspace content) workspace
  · simp only [twins.writeFile_eq h]
    rcases workspace.writeFile path [] with errno | tree
    · exact ⟨.error ⟨rfl, text⟩, rfl⟩
    · refine ⟨.error ⟨rfl, text⟩, ?_⟩
      simp only [Except.map, Except.mapError, outcome_bind, outcome_set, outcome_orFault,
        Workspace.locate_of_spells twins.spells, Workspace.locate_of_spells twins.spells',
        Workspace.renamed, FileTree.remove_renamed h]
      rfl

/-- What is moved takes its names along. -/
theorem runsRenamed_move {source source' : String} {origin : Location}
    (twins' : Twins rename name name' origin source source')
    (whole : ∀ names, rename (origin ++ names) = rename origin ++ names)
    (whole' : ∀ names, rename (location ++ names) = rename location ++ names)
    : RunsRenamed rename (SameFault name name') (Disk.move source path)
        (Disk.move source' path') := by
  refine runsRenamed_change (twins'.text.actionFromTo twins.text "rename") fun workspace => ?_
  rw [Workspace.checkWay_trimmed twins.spells, Workspace.checkWay_trimmed twins.spells',
    Workspace.checkWay_trimmed twins'.spells, Workspace.checkWay_trimmed twins'.spells',
    Workspace.locate_of_spells twins.spells, Workspace.locate_of_spells twins.spells',
    Workspace.locate_of_spells twins'.spells, Workspace.locate_of_spells twins'.spells']
  exact FileTree.move_renamed h whole whole'

section

variable (parents : SameBut name name' (PathText.absolute location.dropLast)
  (PathText.absolute (rename location.dropLast)))

include parents

theorem runsRenamed_makeParents
    : RunsRenamed rename (SameFault name name') (Disk.makeDirectories (PathText.parent path))
        (Disk.makeDirectories (PathText.parent path')) := by
  rw [twins.spells.parent_eq, twins.spells'.parent_eq, h.dropLast_eq]
  exact runsRenamed_makeDirectories h (twins_absolute h twins.spells.named.dropLast parents)

theorem runsRenamed_writeText (text : String)
    : RunsRenamed rename (SameFault name name') (writeText path text) (writeText path' text) :=
  (runsRenamed_makeParents h twins parents).bind fun _ => runsRenamed_write h twins _

variable {source source' : String} {origin : Location}
  (twins' : Twins rename name name' origin source source')

include twins'

theorem runsRenamed_copyFile
    : RunsRenamed rename (SameFault name name') (copyFile source path) (copyFile source' path') :=
  (runsRenamed_makeParents h twins parents).bind fun _ => runsRenamed_copy h twins twins'

/-- A directory takes the place of another one, unless that is the top of the tree. -/
theorem runsRenamed_replaceFolder
    (whole : ∀ names, rename (origin ++ names) = rename origin ++ names)
    (whole' : location ≠ [] → ∀ names, rename (location ++ names) = rename location ++ names)
    : RunsRenamed rename (SameFault name name') (replaceFolder source path)
        (replaceFolder source' path') := by
  by_cases atTop : location = []
  · intro workspace
    obtain ⟨matched, after⟩ := runsRenamed_remove h twins workspace
    subst atTop
    obtain ⟨fault, ran⟩ := remove_top twins.spells workspace
    obtain ⟨fault', ran'⟩ := remove_top (h.eq_nil_iff.2 rfl ▸ twins.spells') (workspace.renamed rename)
    rw [ran, ran'] at matched
    rw [replaceFolder, replaceFolder, outcome_bind, outcome_bind, ran, ran']
    cases matched with
    | error related => exact ⟨.error related, rfl⟩
  · exact (runsRenamed_remove h twins).bind fun _ =>
      (runsRenamed_makeParents h twins parents).bind fun _ =>
        runsRenamed_move h twins twins' whole (whole' atTop)

end

end

-----------------------------------------------------------------------------------------
-- Exchanging two locations
-----------------------------------------------------------------------------------------

/-- Exchanges two locations, with all that is below them. -/
def swap (first second place : Location) : Location :=
  if first <+: place then second ++ place.drop first.length
  else if second <+: place then first ++ place.drop second.length
  else place

section

variable {first second place : Location}

theorem swap_first (first second names : Location)
    : swap first second (first ++ names) = second ++ names := by
  rw [swap, if_pos (List.prefix_append _ _), List.drop_left]

theorem swap_outside (notFirst : ¬ first <+: place) (notSecond : ¬ second <+: place)
    : swap first second place = place := by
  rw [swap, if_neg notFirst, if_neg notSecond]

variable (beside : Beside first second)

include beside

theorem swap_second (names : Location) : swap first second (second ++ names) = first ++ names := by
  by_cases same : first = second
  · rw [same, swap_first]
  · rw [swap, if_neg (beside.not_prefix_append same names), if_pos (List.prefix_append _ _),
      List.drop_left]

/-- What is at or below neither of two locations, and what is above them, stays where it is. -/
theorem swap_above (isAbove : place <+: first.dropLast) : swap first second place = place := by
  have apart {location : Location} (nonempty : location ≠ [])
      (isAbove : place <+: location.dropLast)
      : ¬ location <+: place := by
    intro isBelow
    have shorter := (isBelow.trans isAbove).length_le
    have positive := List.length_pos_iff.2 nonempty
    rw [List.length_dropLast] at shorter
    omega
  exact swap_outside (apart beside.nonempty isAbove)
    (apart beside.nonempty' (beside.parent ▸ isAbove))

theorem swap_swap (place : Location) : swap first second (swap first second place) = place := by
  by_cases isFirst : first <+: place
  · obtain ⟨names, rfl⟩ := isFirst
    rw [swap_first, swap_second beside]
  · by_cases isSecond : second <+: place
    · obtain ⟨names, rfl⟩ := isSecond
      rw [swap_second beside, swap_first]
    · rw [swap_outside isFirst isSecond, swap_outside isFirst isSecond]

theorem prefix_swap {location : Location} (isAbove : place <+: location)
    : swap first second place <+: swap first second location := by
  have above {start names : Location} (proper : ¬ start <+: place) (isAbove : place <+: start ++ names)
      : place <+: start.dropLast := by
    have isPrefix := (List.prefix_or_prefix_of_prefix isAbove
      (List.prefix_append start names)).resolve_right proper
    rcases List.eq_nil_or_concat start with rfl | ⟨above, name, rfl⟩
    · exact isPrefix
    · rw [List.concat_eq_append] at proper isPrefix ⊢
      rw [List.dropLast_concat]
      exact (List.prefix_concat_iff.1 isPrefix).resolve_left
        fun same => proper (same ▸ List.prefix_rfl)
  by_cases isFirst : first <+: place
  · obtain ⟨names, rfl⟩ := isFirst
    obtain ⟨more, rfl⟩ := isAbove
    rw [swap_first, List.append_assoc, swap_first, ← List.append_assoc]
    exact List.prefix_append _ _
  by_cases isSecond : second <+: place
  · obtain ⟨names, rfl⟩ := isSecond
    obtain ⟨more, rfl⟩ := isAbove
    rw [swap_second beside, List.append_assoc, swap_second beside, ← List.append_assoc]
    exact List.prefix_append _ _
  rw [swap_outside isFirst isSecond]
  by_cases intoFirst : first <+: location
  · obtain ⟨names, rfl⟩ := intoFirst
    rw [swap_first]
    exact ((beside.parent ▸ above isFirst isAbove).trans (List.dropLast_prefix _)).trans
      (List.prefix_append _ _)
  by_cases intoSecond : second <+: location
  · obtain ⟨names, rfl⟩ := intoSecond
    rw [swap_second beside]
    exact ((beside.parent ▸ above isSecond isAbove).trans (List.dropLast_prefix _)).trans
      (List.prefix_append _ _)
  · rwa [swap_outside intoFirst intoSecond]

theorem isRenaming_swap (named : first.Named) (named' : second.Named)
    : IsRenaming (swap first second) := by
  refine ⟨fun {location} isNamed => ?_, fun location => ?_, ⟨fun isAbove => ?_, prefix_swap beside⟩⟩
  · by_cases isFirst : first <+: location
    · obtain ⟨names, rfl⟩ := isFirst
      rw [swap_first]
      exact named'.append isNamed.right
    · by_cases isSecond : second <+: location
      · obtain ⟨names, rfl⟩ := isSecond
        rw [swap_second beside]
        exact named.append isNamed.right
      · rwa [swap_outside isFirst isSecond]
  · by_cases isFirst : first <+: location
    · obtain ⟨names, rfl⟩ := isFirst
      rw [swap_first, List.length_append, List.length_append, beside.length_eq]
    · by_cases isSecond : second <+: location
      · obtain ⟨names, rfl⟩ := isSecond
        rw [swap_second beside, List.length_append, List.length_append, beside.length_eq]
      · rw [swap_outside isFirst isSecond]
  · have back := prefix_swap beside isAbove
    rwa [swap_swap beside, swap_swap beside] at back

end

-----------------------------------------------------------------------------------------
-- A directory with another name
-----------------------------------------------------------------------------------------

section

variable {parent : Location} (named : parent.Named) (isName : IsName name) (isName' : IsName name')

theorem beside_concat (parent : Location) (name name' : String)
    : Beside (parent ++ [name]) (parent ++ [name']) :=
  ⟨List.concat_ne_nil _ _, List.concat_ne_nil _ _, by rw [List.dropLast_concat,
    List.dropLast_concat]⟩

/-- Exchanges two names in a directory. -/
def exchange (parent : Location) (name name' : String) : Location → Location :=
  swap (parent ++ [name]) (parent ++ [name'])

theorem exchange_below (parent : Location) (name name' : String) (names : Location)
    : exchange parent name name' (parent ++ [name] ++ names) = parent ++ [name'] ++ names :=
  swap_first _ _ _

theorem exchange_parent (parent : Location) (name name' : String)
    : exchange parent name name' parent = parent :=
  swap_above (beside_concat parent name name') (by rw [List.dropLast_concat])

/-- What stands at a place where two names are exchanged is what stood at the other place. -/
theorem FileTree.entry?_exchanged {parent : Location} {name name' : String}
    (named : (parent ++ [name]).Named) (named' : (parent ++ [name']).Named) (tree : FileTree)
    (place : Location)
    : FileTree.entry? (tree.renamed (exchange parent name name')) place
      = tree.entry? (exchange parent name name' place) := by
  have beside := beside_concat parent name name'
  have moved := entry?_renamed (isRenaming_swap beside named named') tree
    (exchange parent name name' place)
  rwa [exchange, swap_swap beside] at moved

/-- A path below a directory that has another name is the same but for that. -/
theorem sameBut_parent (parent : Location) (name name' : String) (names : Location)
    : SameBut name name' (PathText.absolute (parent ++ [name] ++ names).dropLast)
        (PathText.absolute (exchange parent name name' (parent ++ [name] ++ names).dropLast)) := by
  by_cases here : names = []
  · rw [here, List.append_nil, List.dropLast_concat, exchange_parent]
    exact .same _
  · rw [List.dropLast_append_of_ne_nil here, exchange_below]
    exact sameBut_absolute parent names.dropLast name name'

include named isName isName'

theorem isRenaming_exchange : IsRenaming (exchange parent name name') :=
  isRenaming_swap (beside_concat _ _ _) (named.concat isName) (named.concat isName')

theorem twins_append {path : String} (stays : ".." ∉ PathText.segments path)
    : Twins (exchange parent name name') name name' (parent ++ [name] ++ PathText.place path)
        (PathText.append (PathText.absolute (parent ++ [name])) path)
        (PathText.append (PathText.absolute (parent ++ [name'])) path) := by
  have spells := PathText.spells_append (named.concat isName) stays
  have spells' := PathText.spells_append (named.concat isName') stays
  have eq := PathText.append_eq_absolute (named.concat isName) (List.concat_ne_nil _ _) stays
  have eq' := PathText.append_eq_absolute (named.concat isName') (List.concat_ne_nil _ _) stays
  refine ⟨spells, ?_, ?_, ?_⟩
  · rwa [exchange_below]
  · have last {text : String} (isSlash : Bool) (noSlash : Workspace.endsWithSlash text = false)
        : Workspace.endsWithSlash (text ++ if isSlash then "/" else "") = isSlash := by
      cases isSlash with
      | true => simp [Workspace.endsWithSlash]
      | false => simpa using noSlash
    rw [eq, eq', last _ ?_, last _ ?_]
    · exact PathText.endsWithSlash_absolute spells.named (by simp)
    · exact PathText.endsWithSlash_absolute spells'.named (by simp)
  · rw [eq, eq']
    exact (sameBut_absolute parent _ name name').append (.same _)

theorem twins_fresh
    : Twins (exchange parent name name') name name' (parent ++ [name])
        (PathText.absolute (parent ++ [name])) (PathText.absolute (parent ++ [name'])) := by
  have below := exchange_below parent name name' []
  rw [List.append_nil, List.append_nil] at below
  have text : SameBut name name' (PathText.absolute (parent ++ [name]))
      (PathText.absolute (exchange parent name name' (parent ++ [name]))) := by
    rw [below]
    simpa using sameBut_absolute parent [] name name'
  have twins := twins_absolute (isRenaming_exchange named isName isName') (named.concat isName) text
  rwa [below] at twins

end

end Stencil.Files
