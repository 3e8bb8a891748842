import Mathlib.Data.List.Infix
import Mathlib.Data.List.Nodup
import Mathlib.Logic.Relation
import Stencil.Proofs.Files.Staging

/-! Changes of file trees, one entry or directory at a time. Every operation comes down to such
changes, so what each of them keeps is kept by all: a well-formed tree stays one, and what stands
below a directory that none of them touches is listed as before.
-/

namespace Stencil.Files

namespace FileTree

variable {tree after : FileTree} {location : Location}

-----------------------------------------------------------------------------------------
-- Changes
-----------------------------------------------------------------------------------------

/-- The places that changes touch: where single entries are put, and from where on all is taken
away or moved.
-/
structure Touched where
  put : Location → Prop
  cut : Location → Prop

/-- One change of a tree. No entry is put below a file, and no file in the place of a directory.
-/
inductive Edit (touched : Touched) (tree : FileTree) : FileTree → Prop
  | put {place : Location} {entry : Entry} (isTouched : touched.put place) (nonempty : place ≠ [])
    (named : place.Named)
    (parent : (tree.entry? place).isSome ∨ tree.entry? place.dropLast = some .directory)
    (free : entry = .directory ∨ tree.entry? place ≠ some .directory)
    : Edit touched tree (tree.put place entry)
  | remove {place : Location} (isTouched : touched.cut place) : Edit touched tree (tree.remove place)
  | move {source target : Location} {after : FileTree} (isSource : touched.cut source)
    (isTarget : touched.cut target) (named : target.Named)
    (moved : tree.move source target = .ok after)
    : Edit touched tree after

/-- Changes of a tree, one after the other. -/
abbrev Edits (touched : Touched) : FileTree → FileTree → Prop :=
  Relation.ReflTransGen (Edit touched)

/-- The entries at and below a location. -/
def listed (location : Location) (tree : FileTree) : List (Location × Entry) :=
  tree.entries.filter fun entry => location.isPrefixOf entry.1

-----------------------------------------------------------------------------------------
-- Well-formed trees
-----------------------------------------------------------------------------------------

theorem WellFormed.parent_of_isSome (h : tree.WellFormed) (nonempty : location ≠ [])
    (stands : (tree.entry? location).isSome)
    : tree.entry? location.dropLast = some .directory := by
  obtain ⟨entry, found⟩ := Option.isSome_iff_exists.1 stands
  exact h.inFolders _ (mem_of_entry?_eq nonempty found)

theorem dropLast_ne_self (nonempty : location ≠ []) : location.dropLast ≠ location := by
  intro same
  have shorter := congrArg List.length same
  have positive := List.length_pos_iff.2 nonempty
  rw [List.length_dropLast] at shorter
  omega

theorem WellFormed.put {entry : Entry} (h : tree.WellFormed) (nonempty : location ≠ [])
    (named : location.Named) (parent : tree.entry? location.dropLast = some .directory)
    (free : entry = .directory ∨ tree.entry? location ≠ some .directory)
    : FileTree.WellFormed (tree.put location entry) := by
  have kept {other : Location × Entry}
      (member : other ∈ tree.entries.filter fun other => other.1 != location)
      : other ∈ tree.entries ∧ other.1 ≠ location := by
    simpa using member
  have folder {place : Location} (stands : tree.entry? place = some .directory)
      : FileTree.entry? (tree.put location entry) place = some .directory := by
    rw [entry?_put nonempty]
    split
    · rename_i same
      rcases free with rfl | free
      · rfl
      · exact absurd (same ▸ stands) free
    · exact stands
  refine ⟨?_, ?_, ?_, ?_⟩
  · refine List.nodup_cons.2 ⟨fun member => ?_, ?_⟩
    · obtain ⟨other, isIn, same⟩ := List.mem_map.1 member
      exact (kept isIn).2 same
    · exact h.distinct.sublist (List.filter_sublist.map _)
  · intro other member
    rcases List.mem_cons.1 member with rfl | isIn
    · exact nonempty
    · exact h.nonempty _ (kept isIn).1
  · intro other member
    rcases List.mem_cons.1 member with rfl | isIn
    · exact named
    · exact h.named _ (kept isIn).1
  · intro other member
    rcases List.mem_cons.1 member with rfl | isIn
    · exact folder parent
    · exact folder (h.inFolders _ (kept isIn).1)

theorem WellFormed.remove (h : tree.WellFormed) (location : Location)
    : FileTree.WellFormed (tree.remove location) := by
  have kept {other : Location × Entry}
      (member : other ∈ tree.entries.filter fun other => !location.isPrefixOf other.1)
      : other ∈ tree.entries ∧ ¬ location <+: other.1 := by
    simpa [← List.isPrefixOf_iff_prefix] using member
  refine ⟨h.distinct.sublist (List.filter_sublist.map _), ?_, ?_, ?_⟩
  · exact fun other member => h.nonempty _ (kept member).1
  · exact fun other member => h.named _ (kept member).1
  · intro other member
    obtain ⟨isIn, outside⟩ := kept member
    have outside' : ¬ location <+: other.1.dropLast :=
      fun isAbove => outside (isAbove.trans (List.dropLast_prefix _))
    rw [entry?_remove, if_neg outside', h.inFolders _ isIn, ite_self]

theorem apart_of_move {source target : Location} (moved : tree.move source target = .ok after)
    : ¬ source <+: target
      ∧ tree.entry? target = none
      ∧ tree.entry? target.dropLast = some .directory := by
  rw [FileTree.move] at moved
  split at moved
  · cases moved
  · cases moved
  · rename_i checked
    split at moved
    · cases moved
    · rename_i outside
      split at moved
      · cases moved
      · rename_i free
        exact ⟨by rwa [List.isPrefixOf_iff_prefix] at outside, by simpa using free,
          checkParent_eq_ok_iff.1 checked⟩

/-- An entry after a move has come along, or stands where it stood before. -/
theorem mem_of_move {source target : Location} {entry : Location × Entry}
    (moved : tree.move source target = .ok after) (member : entry ∈ after.entries)
    : (∃ names, (source ++ names, entry.2) ∈ tree.entries ∧ entry.1 = target ++ names)
      ∨ entry ∈ tree.entries ∧ ¬ source <+: entry.1 := by
  obtain ⟨_, _, rfl⟩ := move_eq_ok moved
  obtain ⟨⟨place, found⟩, isIn, rfl⟩ := List.mem_map.1 member
  by_cases inside : source <+: place
  · obtain ⟨names, rfl⟩ := inside
    exact .inl ⟨names, isIn, movedTo_append source target names⟩
  · rw [movedTo_of_outside target inside]
    exact .inr ⟨isIn, inside⟩

/-- What is moved stands in a directory again. -/
theorem WellFormed.parent_of_moved {source target names : Location} {entry : Entry}
    (h : tree.WellFormed) (moved : tree.move source target = .ok after)
    (member : (source ++ names, entry) ∈ tree.entries)
    : after.entry? (target ++ names).dropLast = some .directory := by
  obtain ⟨apart, free, parent⟩ := apart_of_move moved
  obtain ⟨_, targetBelow, _⟩ := move_eq_ok moved
  have stands := entry?_move moved fun _ => h.none_below free
  by_cases here : names = []
  · have below : ¬ target <+: target.dropLast := fun isAbove =>
      dropLast_ne_self targetBelow ((List.dropLast_prefix _).eq_of_length_le isAbove.length_le)
    have beside : ¬ source <+: target.dropLast :=
      fun isAbove => apart (isAbove.trans (List.dropLast_prefix _))
    rw [here, List.append_nil, stands, if_neg below, if_neg beside, parent]
  · rw [List.dropLast_append_of_ne_nil here, stands, if_pos (List.prefix_append _ _),
      List.drop_left, ← List.dropLast_append_of_ne_nil here]
    exact h.inFolders _ member

/-- What is moved has a place of its own and stands in a directory again, and so does what is left.
-/
theorem WellFormed.move {source target : Location} (h : tree.WellFormed) (named : target.Named)
    (moved : tree.move source target = .ok after)
    : after.WellFormed := by
  obtain ⟨_, free, _⟩ := apart_of_move moved
  have free : ∀ names, tree.entry? (target ++ names) = none := fun _ => h.none_below free
  obtain ⟨_, targetBelow, eq⟩ := move_eq_ok moved
  have notBelow {entry : Location × Entry} (member : entry ∈ tree.entries) : ¬ target <+: entry.1 :=
    not_prefix_of_mem targetBelow free member
  refine ⟨?_, fun entry member => ?_, fun entry member => ?_, fun entry member => ?_⟩
  · have keys : after.entries.map Prod.fst
        = (tree.entries.map Prod.fst).map (movedTo source target) := by
      rw [eq, List.map_map, List.map_map]
      rfl
    rw [keys]
    refine List.Nodup.map_on (fun place isPlace other isOther same => ?_) h.distinct
    obtain ⟨entry, member, rfl⟩ := List.mem_map.1 isPlace
    obtain ⟨entry', member', rfl⟩ := List.mem_map.1 isOther
    exact eq_of_movedTo_eq (notBelow member) (notBelow member') same
  all_goals rcases mem_of_move moved member with ⟨names, isIn, came⟩ | ⟨isIn, outside⟩
  · rw [came]
    exact List.append_ne_nil_of_left_ne_nil targetBelow names
  · exact h.nonempty _ isIn
  · rw [came]
    exact named.append (h.named _ isIn : Location.Named (source ++ names)).right
  · exact h.named _ isIn
  · rw [came]
    exact h.parent_of_moved moved isIn
  · rw [entry?_move moved free,
      if_neg fun isAbove => notBelow isIn (isAbove.trans (List.dropLast_prefix _)),
      if_neg fun isAbove => outside (isAbove.trans (List.dropLast_prefix _))]
    exact h.inFolders _ isIn

/-- A change keeps a tree well-formed. -/
theorem Edit.wellFormed {touched : Touched} (edit : Edit touched tree after) (h : tree.WellFormed)
    : after.WellFormed := by
  cases edit with
  | put _ nonempty named parent free =>
      exact h.put nonempty named (parent.elim (h.parent_of_isSome nonempty) id) free
  | remove _ => exact h.remove _
  | move _ _ named moved => exact h.move named moved

theorem Edits.wellFormed {touched : Touched} (edits : Edits touched tree after)
    (h : tree.WellFormed)
    : after.WellFormed := by
  induction edits with
  | refl => exact h
  | tail _ edit ih => exact edit.wellFormed ih

-----------------------------------------------------------------------------------------
-- What is listed
-----------------------------------------------------------------------------------------

/-- A location that is apart from what changes touch: nothing is put there, and nothing is taken
away or moved at, above or below it.
-/
structure Touched.Spares (touched : Touched) (location : Location) : Prop where
  put : ∀ place, touched.put place → ¬ location <+: place
  above : ∀ place, touched.cut place → ¬ place <+: location
  below : ∀ place, touched.cut place → ¬ location <+: place

/-- No place is at or below two locations neither of which is above the other. -/
theorem not_prefix_of_apart {first second place : Location} (apart : ¬ first <+: second)
    (apart' : ¬ second <+: first) (isBelow : first <+: place)
    : ¬ second <+: place :=
  fun isBelow' => (List.prefix_or_prefix_of_prefix isBelow isBelow').elim apart apart'

theorem listed_put {place : Location} (outside : ¬ location <+: place) (entry : Entry)
    : FileTree.listed location (tree.put place entry) = tree.listed location := by
  have apart : location.isPrefixOf place = false := by
    rwa [← Bool.not_eq_true, List.isPrefixOf_iff_prefix]
  simp only [listed, FileTree.put, List.filter_cons, apart, Bool.false_eq_true, if_false,
    List.filter_filter]
  refine List.filter_congr fun other _ => ?_
  by_cases same : other.1 = place
  · simp [same, apart]
  · simp [same]

theorem listed_remove {place : Location} (above : ¬ place <+: location) (below : ¬ location <+: place)
    : FileTree.listed location (tree.remove place) = tree.listed location := by
  simp only [listed, FileTree.remove, List.filter_filter]
  refine List.filter_congr fun other _ => ?_
  by_cases isBelow : location <+: other.1
  · have apart : place.isPrefixOf other.1 = false := by
      rw [← Bool.not_eq_true, List.isPrefixOf_iff_prefix]
      exact not_prefix_of_apart below above isBelow
    simp [apart]
  · have apart : location.isPrefixOf other.1 = false := by
      rwa [← Bool.not_eq_true, List.isPrefixOf_iff_prefix]
    simp [apart]

section

variable {source target : Location} (aboveSource : ¬ source <+: location)
  (belowSource : ¬ location <+: source)

include aboveSource belowSource

/-- Nothing moves into a location that is apart from source and target, or out of it. -/
theorem prefix_movedTo_iff (aboveTarget : ¬ target <+: location) (belowTarget : ¬ location <+: target)
    (place : Location)
    : location <+: movedTo source target place ↔ location <+: place := by
  by_cases inside : source <+: place
  · obtain ⟨names, rfl⟩ := inside
    rw [movedTo_append]
    refine ⟨fun isBelow => ?_, fun isBelow => ?_⟩
    · exact absurd (List.prefix_append _ _) (not_prefix_of_apart belowTarget aboveTarget isBelow)
    · exact absurd (List.prefix_append _ _) (not_prefix_of_apart belowSource aboveSource isBelow)
  · rw [movedTo_of_outside target inside]

theorem listed_move (aboveTarget : ¬ target <+: location) (belowTarget : ¬ location <+: target)
    (moved : tree.move source target = .ok after)
    : after.listed location = tree.listed location := by
  obtain ⟨_, _, rfl⟩ := move_eq_ok moved
  have same : (tree.entries.filter fun entry =>
      location.isPrefixOf (movedTo source target entry.1)) = tree.listed location := by
    refine List.filter_congr fun entry _ => ?_
    rw [Bool.eq_iff_iff, List.isPrefixOf_iff_prefix, List.isPrefixOf_iff_prefix,
      prefix_movedTo_iff aboveSource belowSource aboveTarget belowTarget]
  rw [listed, List.filter_map]
  change ((tree.entries.filter fun entry =>
    location.isPrefixOf (movedTo source target entry.1)).map _) = tree.listed location
  rw [same]
  refine (List.map_congr_left fun entry member => ?_).trans (List.map_id _)
  have isBelow := List.isPrefixOf_iff_prefix.1 (List.mem_filter.1 member).2
  rw [movedTo_of_outside target (not_prefix_of_apart belowSource aboveSource isBelow)]
  rfl

end

/-- Below a location that is apart from what a change touches, all is listed as before. -/
theorem Edit.listed_eq {touched : Touched} (edit : Edit touched tree after)
    (spares : touched.Spares location)
    : after.listed location = tree.listed location := by
  cases edit with
  | put isTouched => exact listed_put (spares.put _ isTouched) _
  | remove isTouched => exact listed_remove (spares.above _ isTouched) (spares.below _ isTouched)
  | move isSource isTarget _ moved =>
      exact listed_move (spares.above _ isSource) (spares.below _ isSource)
        (spares.above _ isTarget) (spares.below _ isTarget) moved

theorem Edits.listed_eq {touched : Touched} (edits : Edits touched tree after)
    (spares : touched.Spares location)
    : after.listed location = tree.listed location := by
  induction edits with
  | refl => rfl
  | tail _ edit ih => exact (edit.listed_eq spares).trans ih

/-- Where nothing stands in a well-formed tree nothing is listed. -/
theorem WellFormed.listed_eq_nil (h : tree.WellFormed)
    (missing : ∀ names, tree.entry? (location ++ names) = none)
    : tree.listed location = [] := by
  rw [listed, List.filter_eq_nil_iff]
  intro entry member isBelow
  obtain ⟨names, eq⟩ := List.isPrefixOf_iff_prefix.1 isBelow
  have found := h.entry?_of_mem member
  rw [← eq, missing] at found
  cases found

/-- What is listed tells what stands there. -/
theorem entry?_of_listed_eq (same : after.listed location = tree.listed location) (names : Location)
    : after.entry? (location ++ names) = tree.entry? (location ++ names) := by
  have found (tree : FileTree)
      : (tree.listed location).lookup (location ++ names)
        = tree.entries.lookup (location ++ names) := by
    rw [listed, lookup_filter location.isPrefixOf,
      if_pos (List.isPrefixOf_iff_prefix.2 (List.prefix_append _ _))]
  unfold entry?
  rw [← found tree, ← found after, same]

/-- What is listed tells which files stand below a place there, and in which order. -/
theorem filesBelow_of_listed_eq (same : after.listed location = tree.listed location)
    (names : Location)
    : after.filesBelow (location ++ names) = tree.filesBelow (location ++ names) := by
  have found (tree : FileTree)
      : filesBelow ⟨tree.listed location⟩ (location ++ names)
        = tree.filesBelow (location ++ names) := by
    simp only [filesBelow, listed, List.filterMap_filter]
    refine List.filterMap_congr fun entry _ => ?_
    split
    · rfl
    · rename_i outside
      obtain ⟨place, content | _⟩ := entry
      · have apart : (location ++ names).isPrefixOf place = false := by
          rw [List.isPrefixOf_iff_prefix] at outside
          rw [← Bool.not_eq_true, List.isPrefixOf_iff_prefix]
          exact fun isBelow => outside ((List.prefix_append _ _).trans isBelow)
        simp [apart]
      · rfl
  rw [← found tree, ← found after, same]

-----------------------------------------------------------------------------------------
-- Operations on trees
-----------------------------------------------------------------------------------------

theorem isBlocked_eq_false_iff
    : tree.isBlocked location = false ↔ ∀ place ∈ above location, tree.file? place = none := by
  simp only [isBlocked, List.any_eq_false]
  refine forall₂_congr fun place _ => ?_
  rw [file?]
  rcases tree.entry? place with _ | _ | _ <;> simp

theorem above_concat (location : Location) : above location ++ [location] = location.inits := by
  induction location with
  | nil => rfl
  | cons name names ih => rw [above, List.cons_append, List.inits_cons, ← ih]; simp

/-- Making missing directories one after the other, by induction on the names that lead down. No file
is in the way.
-/
theorem edits_foldl_inits {touched : Touched} (named : location.Named)
    (isTouched : ∀ place, place <+: location → touched.put place)
    (open' : ∀ place, place <+: location → tree.file? place = none)
    : let after := location.inits.foldl (fun tree place =>
        if (tree.entry? place).isSome then tree else tree.put place .directory) tree
      Edits touched tree after ∧ after.entry? location = some .directory := by
  induction location using List.reverseRecOn with
  | nil => exact ⟨.refl, rfl⟩
  | append_singleton names name ih =>
      have isAbove : names <+: names ++ [name] := List.prefix_append _ _
      obtain ⟨edits, folder⟩ := ih named.left (fun place h => isTouched place (h.trans isAbove))
        (fun place h => open' place (h.trans isAbove))
      have inits : (names ++ [name]).inits = names.inits ++ [names ++ [name]] := by
        rw [List.inits_append]
        rfl
      have above : ∀ place ∈ names.inits, place <+: names :=
        fun place member => (List.mem_inits _ _).1 member
      have adds := (addsFolders_foldl above tree).1
      have noFile : file? _ (names ++ [name]) = none :=
        (adds.file?_eq (names ++ [name])).trans (open' _ List.prefix_rfl)
      rw [inits, List.foldl_append]
      generalize names.inits.foldl _ tree = middle at edits folder noFile
      intro after
      by_cases stands : (middle.entry? (names ++ [name])).isSome
      · have same : after = middle := if_pos stands
        rw [same]
        refine ⟨edits, ?_⟩
        obtain ⟨entry, found⟩ := Option.isSome_iff_exists.1 stands
        cases entry with
        | file content =>
            rw [file?_eq_some_iff.2 found] at noFile
            cases noFile
        | directory => exact found
      · have new : after = middle.put (names ++ [name]) .directory := if_neg stands
        have nonempty : names ++ [name] ≠ [] := List.concat_ne_nil _ _
        rw [new, entry?_put nonempty, if_pos rfl]
        exact ⟨edits.tail (.put (isTouched _ List.prefix_rfl) nonempty named
          (.inr (by rwa [List.dropLast_concat])) (.inl rfl)), rfl⟩

/-- Making directories is one change after the other. -/
theorem edits_of_makeDirectories {touched : Touched} (named : location.Named)
    (isTouched : ∀ place, place <+: location → touched.put place)
    (h : tree.makeDirectories location = .ok after)
    : Edits touched tree after := by
  rw [makeDirectories] at h
  split at h
  · cases h
  · cases h
    exact .refl
  · rename_i missing
    split at h
    · cases h
    · rename_i notBlocked
      cases h
      rw [above_concat]
      refine (edits_foldl_inits named isTouched fun place isAbove => ?_).1
      by_cases same : place = location
      · rw [same, file?, missing]
      · exact isBlocked_eq_false_iff.1 (by simpa using notBlocked) _ (mem_above isAbove same)

/-- Writing a file is one change. -/
theorem edit_of_writeFile {touched : Touched} {content : Bytes} (named : location.Named)
    (isTouched : touched.put location) (h : tree.writeFile location content = .ok after)
    : Edit touched tree after := by
  have nonempty : location ≠ [] := by
    rintro rfl
    cases h
  rw [writeFile] at h
  split at h
  · cases h
  · rename_i found
    cases h
    exact .put isTouched nonempty named (.inl (by simp [found])) (.inr (by simp [found]))
  · rename_i missing
    cases checked : tree.checkParent location with
    | error errno =>
        rw [checked] at h
        cases h
    | ok _ =>
        rw [checked] at h
        cases h
        exact .put isTouched nonempty named (.inr (checkParent_eq_ok_iff.1 checked))
          (.inr (by simp [missing]))

end FileTree

-----------------------------------------------------------------------------------------
-- Operations on workspaces
-----------------------------------------------------------------------------------------

open FileTree (Touched Edits)

variable {touched : Touched} {before workspace after : Workspace}

/-- A workspace whose tree has been changed at some places, and whose lottery goes on. -/
structure Edited (touched : Touched) (before after : Workspace) : Prop where
  directory : after.directory = before.directory
  draws : after.lottery.Within before.lottery
  edits : Edits touched before.tree after.tree

theorem Edited.refl (touched : Touched) (workspace : Workspace)
    : Edited touched workspace workspace :=
  ⟨rfl, .refl _, .refl⟩

theorem Edited.then {tree : FileTree} (edited : Edited touched before workspace)
    (edits : Edits touched workspace.tree tree)
    : Edited touched before { workspace with tree } :=
  ⟨edited.directory, edited.draws, edited.edits.trans edits⟩

section

variable {path : String} {location : Location} (spells : PathText.Spells path location)

include spells

theorem keeps_edited_makeDirectories (isTouched : ∀ place, place <+: location → touched.put place)
    : Keeps (Edited touched before) (Disk.makeDirectories path) := by
  intro workspace edited
  rw [outcome_makeDirectories_of_spells spells]
  split
  · rename_i changed
    exact edited.then (FileTree.edits_of_makeDirectories spells.named isTouched changed)
  · exact edited

theorem Edited.writeFile {content : Bytes} {tree : FileTree}
    (edited : Edited touched before workspace) (isTouched : touched.put location)
    (h : workspace.writeFile path content = .ok tree)
    : Edited touched before { workspace with tree } :=
  edited.then (.single (FileTree.edit_of_writeFile spells.named isTouched
    (Workspace.writeFile_eq_ok spells h)))

theorem keeps_edited_writing (action : String) (isTouched : touched.put location) (content : Bytes)
    : Keeps (Edited touched before)
        (change action fun workspace => workspace.writeFile path content) := by
  intro workspace edited
  rcases written : outcome (change action _) workspace with ⟨fault | _, after⟩
  · cases change_eq_error written
    exact edited
  · obtain ⟨tree, changed, rfl⟩ := change_eq_ok.1 written
    exact edited.writeFile spells isTouched changed

theorem keeps_edited_write (isTouched : touched.put location) (content : Bytes)
    : Keeps (Edited touched before) (Disk.write path content) :=
  keeps_edited_writing spells _ isTouched content

theorem keeps_edited_copy (isTouched : touched.put location) (isCut : touched.cut location)
    (source : String)
    : Keeps (Edited touched before) (Disk.copy source path) := by
  intro workspace edited
  rcases copied : outcome (Disk.copy source path) workspace with ⟨fault | _, after⟩
  · rcases copy_eq_error spells copied with rfl | ⟨_, rfl⟩
    · exact edited
    · exact edited.then (.single (.remove isCut))
  · obtain ⟨content, tree, _, written, rfl⟩ := exists_writeFile_of_copy copied
    exact edited.writeFile spells isTouched written

theorem keeps_edited_remove (isCut : touched.cut location)
    : Keeps (Edited touched before) (Disk.remove path) := by
  intro workspace edited
  rcases removed : outcome (Disk.remove path) workspace with ⟨fault | _, after⟩
  · cases remove_eq_error removed
    exact edited
  · rcases remove_eq_ok spells removed with ⟨_, rfl⟩ | ⟨_, rfl⟩
    · exact edited
    · exact edited.then (.single (.remove isCut))

theorem keeps_edited_move {source : String} {origin : Location}
    (spells' : PathText.Spells source origin) (isCut : touched.cut location)
    (isCut' : touched.cut origin)
    : Keeps (Edited touched before) (Disk.move source path) := by
  intro workspace edited
  rcases moved : outcome (Disk.move source path) workspace with ⟨fault | _, after⟩
  · cases change_eq_error moved
    exact edited
  · obtain ⟨tree, changed, rfl⟩ := move_eq_ok spells spells' moved
    exact edited.then (.single (.move isCut' isCut spells.named changed))

end

end Stencil.Files
