import Stencil.Files.Tree
import Stencil.Proofs.Files.Places

/-! File trees as maps from locations. A well-formed tree has one entry for a location at most, and
a directory above each entry; the operations are told by what stands at each location after them.
-/

namespace Stencil.Files

namespace FileTree

/-- The content of the file at a location, if one stands there. -/
def file? (tree : FileTree) (location : Location) : Option Bytes :=
  match tree.entry? location with
  | some (.file content) => some content
  | _ => none

/-- Each location has one entry at most, spelled in names and with a directory above it. -/
structure WellFormed (tree : FileTree) : Prop where
  distinct : (tree.entries.map Prod.fst).Nodup
  nonempty : ∀ entry ∈ tree.entries, entry.1 ≠ []
  named : ∀ entry ∈ tree.entries, entry.1.Named
  inFolders : ∀ entry ∈ tree.entries, tree.entry? entry.1.dropLast = some .directory

instance (tree : FileTree) : Decidable tree.WellFormed :=
  decidable_of_iff
    ((tree.entries.map Prod.fst).Nodup
      ∧ (∀ entry ∈ tree.entries, entry.1 ≠ [])
      ∧ (∀ entry ∈ tree.entries, Location.Named entry.1)
      ∧ ∀ entry ∈ tree.entries, tree.entry? entry.1.dropLast = some .directory)
    ⟨fun ⟨distinct, nonempty, named, inFolders⟩ => ⟨distinct, nonempty, named, inFolders⟩,
      fun h => ⟨h.distinct, h.nonempty, h.named, h.inFolders⟩⟩

/-- A tree has new directories at and above a location, and is otherwise as before. -/
def AddsFolders (location : Location) (before after : FileTree) : Prop :=
  ∀ place,
    after.entry? place = before.entry? place
    ∨ before.entry? place = none ∧ after.entry? place = some .directory ∧ place <+: location

/-- What does not stand at or below a location is as before. -/
def SameOutside (location : Location) (before after : FileTree) : Prop :=
  ∀ place, ¬ location <+: place → after.entry? place = before.entry? place

/-- Something stands at each place above a location, and at the location. -/
def Reaches (tree : FileTree) (location : Location) : Prop :=
  ∀ place, place <+: location → (tree.entry? place).isSome

variable {tree after : FileTree} {location : Location}

@[simp] theorem entry?_nil : tree.entry? [] = some .directory := rfl

theorem entry?_of_ne (nonempty : location ≠ [])
    : tree.entry? location = tree.entries.lookup location :=
  if_neg nonempty

theorem file?_eq_some_iff {content : Bytes}
    : tree.file? location = some content ↔ tree.entry? location = some (.file content) := by
  rw [file?]
  split
  · rename_i found
    simp [found]
  · rename_i other
    exact ⟨fun none => by simp at none, fun found => (other content found).elim⟩

theorem file?_eq_none_of_directory (h : tree.entry? location = some .directory)
    : tree.file? location = none := by
  simp [file?, h]

theorem file?_congr {other : Location} {tree' : FileTree}
    (h : tree'.entry? other = tree.entry? location)
    : tree'.file? other = tree.file? location := by
  rw [file?, file?, h]

theorem find_eq_ok_iff {entry : Entry}
    : tree.find location = .ok entry ↔ tree.entry? location = some entry := by
  rw [find]
  split <;> simp_all

theorem checkDirectory_eq_ok_iff
    : tree.checkDirectory location = .ok () ↔ tree.entry? location = some .directory := by
  rw [← find_eq_ok_iff, checkDirectory]
  split <;> simp_all

theorem checkParent_eq_ok_iff
    : tree.checkParent location = .ok () ↔ tree.entry? location.dropLast = some .directory :=
  checkDirectory_eq_ok_iff

-----------------------------------------------------------------------------------------
-- Entries of well-formed trees
-----------------------------------------------------------------------------------------

theorem mem_of_entry?_eq {entry : Entry} (nonempty : location ≠ [])
    (h : tree.entry? location = some entry)
    : (location, entry) ∈ tree.entries := by
  rw [entry?_of_ne nonempty] at h
  obtain ⟨before, behind, eq, _⟩ := List.lookup_eq_some_iff.1 h
  simp [eq]

theorem WellFormed.entry?_of_mem {entry : Entry} (h : tree.WellFormed)
    (member : (location, entry) ∈ tree.entries)
    : tree.entry? location = some entry := by
  have distinct := h.distinct
  rw [entry?_of_ne (h.nonempty _ member), List.lookup_eq_some_iff]
  obtain ⟨before, behind, eq⟩ := List.append_of_mem member
  refine ⟨before, behind, eq, ?_⟩
  rintro other inBefore
  rw [eq, List.map_append, List.nodup_append] at distinct
  have apart := distinct.2.2 _ (List.mem_map_of_mem inBefore) location (by simp)
  simpa using Ne.symm apart

theorem WellFormed.named_of_entry? {entry : Entry} (h : tree.WellFormed)
    (found : tree.entry? location = some entry)
    : location.Named := by
  by_cases atTop : location = []
  · subst atTop
    exact PathText.named_nil
  · exact h.named _ (mem_of_entry?_eq atTop found)

/-- Above an entry there is a directory, by induction on the names from there on: the first of
them has an entry, above which the directory stands.
-/
theorem WellFormed.folder_above {names : Location} {entry : Entry} (h : tree.WellFormed)
    (below : names ≠ []) (found : tree.entry? (location ++ names) = some entry)
    : tree.entry? location = some .directory := by
  induction names generalizing location with
  | nil => exact absurd rfl below
  | cons name names ih =>
      have first : ∃ entry, tree.entry? (location ++ [name]) = some entry := by
        by_cases last : names = []
        · exact ⟨entry, by simpa [last] using found⟩
        · exact ⟨_, ih last (by simpa using found)⟩
      obtain ⟨_, at_⟩ := first
      simpa using h.inFolders _ (mem_of_entry?_eq (by simp) at_)

theorem WellFormed.reaches (h : tree.WellFormed) (stands : (tree.entry? location).isSome)
    : tree.Reaches location := by
  rintro place ⟨names, rfl⟩
  obtain ⟨entry, found⟩ := Option.isSome_iff_exists.1 stands
  by_cases same : names = []
  · simpa [same] using stands
  · rw [h.folder_above same found]
    rfl

/-- Where nothing stands in a well-formed tree nothing stands below. -/
theorem WellFormed.none_below {names : Location} (h : tree.WellFormed)
    (missing : tree.entry? location = none)
    : tree.entry? (location ++ names) = none := by
  cases names with
  | nil => simpa using missing
  | cons name names =>
      cases found : tree.entry? (location ++ name :: names) with
      | none => rfl
      | some entry => simp [h.folder_above (List.cons_ne_nil _ _) found] at missing

/-- The files below a location of a well-formed tree are those that stand there. -/
theorem WellFormed.mem_filesBelow_iff {names : Location} (h : tree.WellFormed)
    : names ∈ tree.filesBelow location
      ↔ ∃ content, tree.file? (location ++ names) = some content := by
  rw [filesBelow, List.mem_filterMap]
  constructor
  · rintro ⟨⟨place, entry⟩, member, eq⟩
    cases entry with
    | directory => simp at eq
    | file content =>
        simp only [Option.ite_none_right_eq_some, Option.some.injEq,
          List.isPrefixOf_iff_prefix] at eq
        obtain ⟨⟨rest, rfl⟩, rfl⟩ := eq
        refine ⟨content, file?_eq_some_iff.2 ?_⟩
        rw [List.drop_left]
        exact h.entry?_of_mem member
  · rintro ⟨content, found⟩
    have entry := file?_eq_some_iff.1 found
    have nonempty : location ++ names ≠ [] := by
      intro eq
      rw [eq] at entry
      simp at entry
    exact ⟨_, mem_of_entry?_eq nonempty entry, by simp [List.isPrefixOf_iff_prefix]⟩

-----------------------------------------------------------------------------------------
-- Operations
-----------------------------------------------------------------------------------------

theorem lookup_filter {α β : Type} [BEq α] [LawfulBEq α] (keeps : α → Bool) (key : α)
    (entries : List (α × β))
    : (entries.filter fun entry => keeps entry.1).lookup key
      = if keeps key then entries.lookup key else none := by
  induction entries with
  | nil => simp
  | cons entry entries ih =>
      obtain ⟨found, value⟩ := entry
      by_cases same : key = found
      · subst same
        by_cases kept : keeps key <;> simp [kept, ih]
      · have other : (key == found) = false := by simpa using same
        by_cases kept : keeps found <;> simp [kept, ih, List.lookup_cons, other]

theorem entry?_put (nonempty : location ≠ []) (entry : Entry) (place : Location)
    : FileTree.entry? (tree.put location entry) place
      = if place = location then some entry else tree.entry? place := by
  by_cases atTop : place = []
  · subst atTop
    rw [if_neg (Ne.symm nonempty)]
    rfl
  · rw [entry?_of_ne atTop, entry?_of_ne atTop, put, List.lookup_cons,
      lookup_filter (· != location)]
    by_cases same : place = location
    · simp [same]
    · simp [same, beq_eq_false_iff_ne.2 same]

theorem entry?_remove (place : Location)
    : FileTree.entry? (tree.remove location) place
      = if place = [] then some .directory
        else if location <+: place then none else tree.entry? place := by
  by_cases atTop : place = []
  · simp [atTop]
  · rw [if_neg atTop, entry?_of_ne atTop, entry?_of_ne atTop, remove,
      lookup_filter fun other => !location.isPrefixOf other]
    by_cases below : location <+: place
    · rw [if_pos below, List.isPrefixOf_iff_prefix.2 below]
      rfl
    · have other : location.isPrefixOf place = false := by
        rwa [← Bool.not_eq_true, List.isPrefixOf_iff_prefix]
      rw [if_neg below, other]
      rfl

/-- What is left when something has been taken away: the top never is. -/
theorem discard_eq_ok_iff
    : tree.discard location = .ok after ↔ location ≠ [] ∧ after = tree.remove location := by
  rw [discard]
  split <;> simp_all [eq_comm]

theorem AddsFolders.refl (location : Location) (tree : FileTree) : AddsFolders location tree tree :=
  fun _ => .inl rfl

theorem AddsFolders.trans {middle : FileTree} (h : AddsFolders location tree middle)
    (h' : AddsFolders location middle after)
    : AddsFolders location tree after := by
  intro place
  rcases h' place with same | ⟨missing, folder, above⟩
  · rw [same]
    exact h place
  · refine .inr ⟨?_, folder, above⟩
    rcases h place with same | ⟨_, folder', _⟩
    · rw [← same, missing]
    · rw [folder'] at missing
      cases missing

/-- New directories leave all files as they are. -/
theorem AddsFolders.file?_eq (h : AddsFolders location tree after) (place : Location)
    : after.file? place = tree.file? place := by
  rcases h place with same | ⟨missing, folder, _⟩
  · exact file?_congr same
  · simp [file?, missing, folder]

theorem AddsFolders.isSome {place : Location} (h : AddsFolders location tree after)
    (stands : (tree.entry? place).isSome)
    : (after.entry? place).isSome := by
  rcases h place with same | ⟨_, folder, _⟩
  · rwa [same]
  · simp [folder]

theorem prefix_of_mem_above {place : Location} (member : place ∈ above location)
    : place <+: location := by
  induction location generalizing place with
  | nil => simp [above] at member
  | cons name names ih =>
      simp only [above, List.mem_cons, List.mem_map] at member
      rcases member with rfl | ⟨rest, inRest, rfl⟩
      · exact List.nil_prefix
      · exact List.cons_prefix_cons.2 ⟨rfl, ih inRest⟩

theorem mem_above {place : Location} (isAbove : place <+: location)
    (differ : place ≠ location)
    : place ∈ above location := by
  induction location generalizing place with
  | nil => exact absurd (List.prefix_nil.1 isAbove) differ
  | cons name names ih =>
      rw [above]
      rcases List.prefix_cons_iff.1 isAbove with rfl | ⟨rest, rfl, inRest⟩
      · exact List.mem_cons_self ..
      · exact List.mem_cons_of_mem _ <| List.mem_map.2
          ⟨rest, ih inRest fun same => differ (same ▸ rfl), rfl⟩

/-- Putting a directory at a place at or above a location, unless something stands there. -/
theorem addsFolders_put {place : Location} (isAbove : place <+: location) (tree : FileTree)
    : let after := if (tree.entry? place).isSome then tree else tree.put place .directory
      AddsFolders location tree after ∧ (after.entry? place).isSome := by
  intro after
  simp only [after]
  split
  · rename_i stands
    exact ⟨.refl _ _, stands⟩
  · rename_i missing
    have nonempty : place ≠ [] := fun atTop => missing (by simp [atTop])
    refine ⟨fun other => ?_, by simp [entry?_put nonempty]⟩
    rw [entry?_put nonempty]
    split
    · rename_i same
      exact .inr ⟨by simpa [same] using missing, rfl, same ▸ isAbove⟩
    · exact .inl rfl

/-- The same with several places, by induction on them. -/
theorem addsFolders_foldl {places : List Location} (above : ∀ place ∈ places, place <+: location)
    (tree : FileTree)
    : let after := places.foldl (fun tree place =>
        if (tree.entry? place).isSome then tree else tree.put place .directory) tree
      AddsFolders location tree after ∧ ∀ place ∈ places, (after.entry? place).isSome := by
  induction places generalizing tree with
  | nil => exact ⟨.refl _ _, fun _ none => absurd none List.not_mem_nil⟩
  | cons place places ih =>
      obtain ⟨first, stands⟩ := addsFolders_put (above place (List.mem_cons_self ..)) tree
      obtain ⟨later, stand⟩ := ih (fun other member => above other (List.mem_cons_of_mem _ member))
        (if (tree.entry? place).isSome then tree else tree.put place .directory)
      refine ⟨first.trans later, fun other member => ?_⟩
      rcases List.mem_cons.1 member with rfl | inRest
      · exact later.isSome stands
      · exact stand other inRest

/-- Making directories makes those that are missing. -/
theorem addsFolders_of_makeDirectories (h : tree.makeDirectories location = .ok after)
    : AddsFolders location tree after
      ∧ after.entry? location = some .directory
      ∧ (tree.WellFormed → after.Reaches location) := by
  rw [makeDirectories] at h
  split at h
  · simp at h
  · rename_i folder
    cases h
    exact ⟨.refl _ _, folder, fun wellFormed => wellFormed.reaches (by simp [folder])⟩
  · rename_i missing
    split at h
    · simp at h
    · cases h
      have above_ : ∀ place ∈ above location ++ [location], place <+: location := by
        intro place member
        rcases List.mem_append.1 member with inAbove | last
        · exact prefix_of_mem_above inAbove
        · simp [List.mem_singleton.1 last]
      obtain ⟨adds, stand⟩ := addsFolders_foldl above_ tree
      refine ⟨adds, ?_, fun _ place isAbove => stand place ?_⟩
      · have stands := stand location (by simp)
        rcases adds location with same | ⟨_, folder, _⟩
        · rw [same, missing] at stands
          cases stands
        · exact folder
      · by_cases same : place = location
        · simp [same]
        · exact List.mem_append_left _ (mem_above isAbove same)

theorem entry?_writeFile {content : Bytes} (h : tree.writeFile location content = .ok after)
    (place : Location)
    : after.entry? place
      = if place = location then some (.file content) else tree.entry? place := by
  have written (nonempty : location ≠ []) :
      FileTree.entry? (tree.put location (.file content)) place
        = if place = location then some (.file content) else tree.entry? place :=
    entry?_put nonempty _ place
  rw [writeFile] at h
  split at h
  · simp at h
  · rename_i found
    cases h
    exact written fun atTop => by simp [atTop] at found
  · rename_i found
    cases checked : tree.checkParent location with
    | error errno => simp [checked, Except.map] at h
    | ok _ =>
        simp only [checked, Except.map, Except.ok.injEq] at h
        subst h
        exact written fun atTop => by simp [atTop] at found

/-- Looking up a key among entries with new keys, if just the entries of another key get it. -/
theorem lookup_map_key {α β : Type} [BEq α] [LawfulBEq α] {f : α → α} {key key' : α}
    {entries : List (α × β)} (same : ∀ entry ∈ entries, f entry.1 = key ↔ entry.1 = key')
    : (entries.map fun entry => (f entry.1, entry.2)).lookup key = entries.lookup key' := by
  induction entries with
  | nil => rfl
  | cons entry entries ih =>
      have first := same entry (List.mem_cons_self ..)
      have later := ih fun other member => same other (List.mem_cons_of_mem _ member)
      rw [List.map_cons, List.lookup_cons, List.lookup_cons, later]
      have test : (key == f entry.1) = (key' == entry.1) := by
        rw [Bool.eq_iff_iff, beq_iff_eq, beq_iff_eq, eq_comm, first, eq_comm]
      rw [test]

/-- The location of an entry after a move. -/
def movedTo (source target place : Location) : Location :=
  if source.isPrefixOf place then target ++ place.drop source.length else place

theorem movedTo_append (source target names : Location)
    : movedTo source target (source ++ names) = target ++ names := by
  have below : source.isPrefixOf (source ++ names) = true :=
    List.isPrefixOf_iff_prefix.2 (List.prefix_append _ _)
  rw [movedTo, if_pos below, List.drop_left]

theorem movedTo_of_outside {source place : Location} (target : Location)
    (outside : ¬ source <+: place)
    : movedTo source target place = place :=
  if_neg (by rwa [List.isPrefixOf_iff_prefix])

/-- What comes to stand below the target has stood below the source. -/
theorem movedTo_eq_append_iff {source target place names : Location} (apart : ¬ target <+: place)
    : movedTo source target place = target ++ names ↔ place = source ++ names := by
  constructor
  · intro eq
    by_cases inside : source <+: place
    · obtain ⟨more, rfl⟩ := inside
      rw [movedTo_append] at eq
      rw [List.append_cancel_left eq]
    · rw [movedTo_of_outside target inside] at eq
      exact absurd ⟨names, eq.symm⟩ apart
  · rintro rfl
    exact movedTo_append source target names

/-- What stands elsewhere after a move has stood there before, and not below the source. -/
theorem movedTo_eq_iff {source target place other : Location} (outside : ¬ target <+: other)
    : movedTo source target place = other ↔ place = other ∧ ¬ source <+: other := by
  constructor
  · intro eq
    have notInside : ¬ source <+: place := by
      rintro ⟨names, rfl⟩
      rw [movedTo_append] at eq
      exact outside ⟨names, eq⟩
    rw [movedTo_of_outside target notInside] at eq
    exact ⟨eq, eq ▸ notInside⟩
  · rintro ⟨rfl, notInside⟩
    exact movedTo_of_outside target notInside

/-- No two places that are not below the target are moved to one. -/
theorem eq_of_movedTo_eq {source target place other : Location} (apart : ¬ target <+: place)
    (apart' : ¬ target <+: other) (same : movedTo source target place = movedTo source target other)
    : place = other := by
  by_cases inside : source <+: other
  · obtain ⟨names, rfl⟩ := inside
    rw [movedTo_append] at same
    exact (movedTo_eq_append_iff apart).1 same
  · rw [movedTo_of_outside target inside] at same
    exact ((movedTo_eq_iff apart').1 same).1

theorem move_eq_ok {source target : Location} (h : tree.move source target = .ok after)
    : source ≠ []
      ∧ target ≠ []
      ∧ after = ⟨tree.entries.map fun entry => (movedTo source target entry.1, entry.2)⟩ := by
  rw [move] at h
  split at h
  · cases h
  · cases h
  · split at h
    · cases h
    · rename_i apart
      split at h
      · cases h
      · rename_i free
        cases h
        refine ⟨fun atTop => apart (by simp [atTop]), fun atTop => free (by simp [atTop]), ?_⟩
        congr 1
        refine List.map_congr_left fun entry _ => ?_
        by_cases inside : source.isPrefixOf entry.1 <;> simp [movedTo, inside]

/-- Moving something to a free place in a directory, not below itself, succeeds. -/
theorem exists_move {source target : Location} (stands : (tree.entry? source).isSome)
    (parent : tree.entry? target.dropLast = some .directory) (apart : ¬ source <+: target)
    (free : tree.entry? target = none)
    : ∃ after, tree.move source target = .ok after := by
  obtain ⟨entry, found⟩ := Option.isSome_iff_exists.1 stands
  have outside : source.isPrefixOf target = false := by
    rwa [← Bool.not_eq_true, List.isPrefixOf_iff_prefix]
  rw [move, find_eq_ok_iff.2 found, checkParent_eq_ok_iff.2 parent]
  simp [outside, free]

/-- No entry stands at or below a place where nothing stands. -/
theorem not_prefix_of_mem {entry : Location × Entry} (nonempty : location ≠ [])
    (free : ∀ names, tree.entry? (location ++ names) = none) (member : entry ∈ tree.entries)
    : ¬ location <+: entry.1 := by
  rintro ⟨names, eq⟩
  have none := free names
  rw [entry?_of_ne (List.append_ne_nil_of_left_ne_nil nonempty names), List.lookup_eq_none_iff]
    at none
  simpa [eq] using none entry member

/-- What stands at a location after a move to a place with nothing at or below it. -/
theorem entry?_move {source target : Location} (h : tree.move source target = .ok after)
    (free : ∀ names, tree.entry? (target ++ names) = none) (place : Location)
    : after.entry? place
      = if target <+: place then tree.entry? (source ++ place.drop target.length)
        else if source <+: place then none
        else tree.entry? place := by
  obtain ⟨sourceBelow, targetBelow, rfl⟩ := move_eq_ok h
  by_cases atTop : place = []
  · subst atTop
    simp [targetBelow, sourceBelow]
  rw [entry?_of_ne atTop]
  split
  · rename_i isTarget
    obtain ⟨names, rfl⟩ := isTarget
    rw [List.drop_left, entry?_of_ne (List.append_ne_nil_of_left_ne_nil sourceBelow names)]
    exact lookup_map_key fun entry member =>
      movedTo_eq_append_iff (not_prefix_of_mem targetBelow free member)
  · rename_i notTarget
    split
    · rename_i isSource
      rw [List.lookup_eq_none_iff]
      intro moved member
      obtain ⟨entry, inEntries, rfl⟩ := List.mem_map.1 member
      rw [bne_iff_ne]
      exact fun eq => ((movedTo_eq_iff notTarget).1 eq.symm).2 isSource
    · rename_i notSource
      rw [entry?_of_ne atTop]
      exact lookup_map_key fun entry member =>
        (movedTo_eq_iff notTarget).trans (and_iff_left notSource)

end FileTree

end Stencil.Files
