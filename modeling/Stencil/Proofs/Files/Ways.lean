import Stencil.Files.Workspace
import Stencil.Proofs.Files.Trees
import Stencil.Proofs.Outcome

/-! Following paths through a tree. A path leads somewhere if it can be followed segment by segment,
and then to the location that its text is normalized to; a text that spells a location can be
followed from everywhere.
-/

namespace Stencil.Files

open PathText (Spells)

variable {workspace : Workspace} {tree : FileTree} {place location : Location} {path : String}

-----------------------------------------------------------------------------------------
-- Paths that can be followed
-----------------------------------------------------------------------------------------

/-- Segments lead from one place to another: each of them is taken in a directory, to stay there,
to go up, or to go on to a name.
-/
inductive Follows (tree : FileTree) : Location → List String → Location → Prop
  | done (place : Location) : Follows tree place [] place
  | here {place last : Location} {segment : String} {segments : List String}
    (folder : tree.entry? place = some .directory) (isHere : segment = "" ∨ segment = ".")
    (later : Follows tree place segments last)
    : Follows tree place (segment :: segments) last
  | above {place last : Location} {segments : List String}
    (folder : tree.entry? place = some .directory)
    (later : Follows tree place.dropLast segments last)
    : Follows tree place (".." :: segments) last
  | down {place last : Location} {segment : String} {segments : List String}
    (folder : tree.entry? place = some .directory)
    (isName : segment ≠ "" ∧ segment ≠ "." ∧ segment ≠ "..")
    (later : Follows tree (place ++ [segment]) segments last)
    : Follows tree place (segment :: segments) last

/-- Where segments lead from a place, whatever stands on the way. -/
def destination (place : Location) (segments : List String) : Location :=
  (segments.foldl (PathText.descend true) place.reverse).reverse

theorem destination_nil (place : Location) : destination place [] = place :=
  List.reverse_reverse place

theorem destination_here {segment : String} (isHere : segment = "" ∨ segment = ".")
    (place : Location) (segments : List String)
    : destination place (segment :: segments) = destination place segments := by
  rcases isHere with rfl | rfl <;> rfl

theorem destination_above (named : place.Named) (segments : List String)
    : destination place (".." :: segments) = destination place.dropLast segments := by
  have up : PathText.descend true place.reverse ".." = place.dropLast.reverse := by
    rcases List.eq_nil_or_concat place with rfl | ⟨outer, name, rfl⟩
    · rfl
    · have isName : IsName name := named name (by simp)
      have notAbove := isName.notAbove
      rw [List.concat_eq_append, List.reverse_append, List.dropLast_concat]
      simp only [PathText.descend, List.reverse_singleton, List.singleton_append]
      simp
  rw [destination, List.foldl_cons, up]
  rfl

theorem destination_down {segment : String}
    (isName : segment ≠ "" ∧ segment ≠ "." ∧ segment ≠ "..") (place : Location)
    (segments : List String)
    : destination place (segment :: segments) = destination (place ++ [segment]) segments := by
  have down : PathText.descend true place.reverse segment = (place ++ [segment]).reverse := by
    simp [PathText.descend, isName]
  rw [destination, List.foldl_cons, down]
  rfl

/-- Segments that can be followed lead to where they lead whatever stands on the way, and they turn
at directories.
-/
theorem Follows.sound {segments : List String} (h : Follows tree place segments location)
    (named : place.Named) (noSlash : ∀ segment ∈ segments, '/' ∉ segment.toList)
    : destination place segments = location
      ∧ ∀ turn ∈ PathText.turns place segments, tree.entry? turn = some .directory := by
  induction h with
  | done place => exact ⟨destination_nil _, fun _ none => absurd none List.not_mem_nil⟩
  | here folder isHere later ih =>
      obtain ⟨leads, turnsAt⟩ := ih named fun other member => noSlash other (.tail _ member)
      refine ⟨by rw [destination_here isHere, leads], fun turn member => ?_⟩
      rw [PathText.turns, if_pos (by simpa using isHere)] at member
      rcases List.mem_cons.1 member with rfl | inLater
      · exact folder
      · exact turnsAt turn inLater
  | above folder later ih =>
      obtain ⟨leads, turnsAt⟩ := ih named.dropLast fun other member => noSlash other (.tail _ member)
      refine ⟨by rw [destination_above named, leads], fun turn member => ?_⟩
      rw [PathText.turns, if_neg (by decide), if_pos rfl] at member
      rcases List.mem_cons.1 member with rfl | inLater
      · exact folder
      · exact turnsAt turn inLater
  | @down place last segment segments folder isName later ih =>
      have isName' : IsName segment :=
        ⟨isName.1, isName.2.1, isName.2.2, noSlash segment (.head _)⟩
      obtain ⟨leads, turnsAt⟩ := ih (named.concat isName')
        fun other member => noSlash other (.tail _ member)
      refine ⟨by rw [destination_down isName, leads], fun turn member => ?_⟩
      rw [PathText.turns, if_neg (by simp [isName]), if_neg isName.2.2] at member
      exact turnsAt turn member

/-- In a well-formed tree, segments that turn at directories can be followed to what stands where
they lead, by induction on the segments: what stands further down the way stands in a directory.
-/
theorem FileTree.WellFormed.follows (wellFormed : tree.WellFormed) {segments : List String}
    (named : place.Named) (noSlash : ∀ segment ∈ segments, '/' ∉ segment.toList)
    (turnsAt : ∀ turn ∈ PathText.turns place segments, tree.entry? turn = some .directory)
    (stands : (tree.entry? (destination place segments)).isSome)
    : (tree.entry? place).isSome ∧ Follows tree place segments (destination place segments) := by
  induction segments generalizing place with
  | nil =>
      rw [destination_nil] at stands ⊢
      exact ⟨stands, .done place⟩
  | cons segment segments ih =>
      have noSlash' : ∀ other ∈ segments, '/' ∉ other.toList :=
        fun other member => noSlash other (.tail _ member)
      by_cases isHere : segment = "" ∨ segment = "."
      · rw [PathText.turns, if_pos (by simpa using isHere)] at turnsAt
        rw [destination_here isHere] at stands ⊢
        have folder := turnsAt place (.head _)
        obtain ⟨_, later⟩ := ih named noSlash' (fun turn member => turnsAt turn (.tail _ member))
          stands
        exact ⟨by simp [folder], .here folder isHere later⟩
      rw [PathText.turns, if_neg (by simpa using isHere)] at turnsAt
      by_cases isAbove : segment = ".."
      · subst isAbove
        rw [if_pos rfl] at turnsAt
        rw [destination_above named] at stands ⊢
        have folder := turnsAt place (.head _)
        obtain ⟨_, later⟩ := ih named.dropLast noSlash'
          (fun turn member => turnsAt turn (.tail _ member)) stands
        exact ⟨by simp [folder], .above folder later⟩
      · rw [if_neg isAbove] at turnsAt
        simp only [not_or] at isHere
        have isName : segment ≠ "" ∧ segment ≠ "." ∧ segment ≠ ".." :=
          ⟨isHere.1, isHere.2, isAbove⟩
        have isName' : IsName segment := ⟨isHere.1, isHere.2, isAbove, noSlash segment (.head _)⟩
        rw [destination_down isName] at stands ⊢
        obtain ⟨further, later⟩ :=
          ih (named.concat isName') noSlash' turnsAt stands
        obtain ⟨entry, found⟩ := Option.isSome_iff_exists.1 further
        have folder := wellFormed.folder_above (List.cons_ne_nil _ _) found
        exact ⟨by simp [folder], .down folder isName later⟩

theorem forM_eq_ok_iff {α : Type} {check : α → Except Errno Unit} {items : List α}
    : items.forM check = .ok () ↔ ∀ item ∈ items, check item = .ok () := by
  induction items with
  | nil => simp [pure, Except.pure]
  | cons item items ih =>
      change (check item >>= fun _ => items.forM check) = .ok () ↔ _
      rw [Outcome.bind_eq_ok_iff, List.forall_mem_cons, ← ih]
      exact ⟨fun ⟨(), both⟩ => both, fun both => ⟨(), both⟩⟩

theorem Workspace.checkWay_eq_ok_iff
    : workspace.checkWay path = .ok ()
      ↔ ∀ turn ∈ workspace.turns path, workspace.tree.entry? turn = some .directory := by
  rw [checkWay, forM_eq_ok_iff]
  exact forall₂_congr fun _ _ => FileTree.checkDirectory_eq_ok_iff

/-- The place that a path is followed from. -/
def Workspace.origin (workspace : Workspace) (path : String) : Location :=
  if PathText.isAbsolute path then [] else workspace.directory

theorem Workspace.locate_eq_destination (named : workspace.directory.Named) (path : String)
    : workspace.locate path
      = destination (workspace.origin path) (PathText.segments path) := by
  rw [locate, PathText.locate, origin]
  split
  · rfl
  · rw [PathText.normalSegments, List.foldl_append, PathText.foldl_descend named.notAbove,
      named.filter_eq_self, List.append_nil]
    rfl

/-- What a path leads to is what is found by following it, and nothing is found at a path that
cannot be followed.
-/
theorem Workspace.find_eq_ok_iff (wellFormed : workspace.tree.WellFormed)
    (named : workspace.directory.Named) {entry : Entry}
    : workspace.find path = .ok entry
      ↔ path ≠ ""
        ∧ ∃ location,
            Follows workspace.tree (workspace.origin path) (PathText.segments path) location
            ∧ workspace.tree.entry? location = some entry := by
  have named' : (workspace.origin path).Named := by
    rw [origin]
    split
    · exact PathText.named_nil
    · exact named
  have noSlash : ∀ segment ∈ PathText.segments path, '/' ∉ segment.toList :=
    fun segment => PathText.noSlash_of_mem_segments
  by_cases empty : path = ""
  · simp [find, empty]
  have found : workspace.find path = .ok entry
      ↔ workspace.checkWay path = .ok ()
        ∧ workspace.tree.find (workspace.locate path) = .ok entry := by
    rw [find, if_neg empty, Outcome.bind_eq_ok_iff]
    exact ⟨fun ⟨(), both⟩ => both, fun both => ⟨(), both⟩⟩
  rw [found, checkWay_eq_ok_iff, FileTree.find_eq_ok_iff, locate_eq_destination named]
  constructor
  · rintro ⟨turnsAt, stands⟩
    have follows := (wellFormed.follows named' noSlash turnsAt (by simp [stands])).2
    exact ⟨empty, _, follows, stands⟩
  · rintro ⟨_, location, follows, stands⟩
    obtain ⟨leads, turnsAt⟩ := follows.sound named' noSlash
    exact ⟨turnsAt, by rw [leads, stands]⟩

-----------------------------------------------------------------------------------------
-- Spelled paths
-----------------------------------------------------------------------------------------

/-- Names are passed without a turn. -/
theorem PathText.turns_append {names : Location} (named : names.Named) (place : Location)
    (segments : List String)
    : turns place (names ++ segments) = turns (place ++ names) segments := by
  induction names generalizing place with
  | nil => rw [List.nil_append, List.append_nil]
  | cons name names ih =>
      have isName := named name (.head _)
      have named' : Location.Named names := fun other member => named other (.tail _ member)
      rw [List.cons_append, turns, if_neg (by simp [isName.nonempty, isName.notHere]),
        if_neg isName.notAbove, ih named', List.append_assoc, List.singleton_append]

theorem PathText.endsWithSlash_absolute (named : location.Named) (nonempty : location ≠ [])
    : Workspace.endsWithSlash (absolute location) = false := by
  rcases List.eq_nil_or_concat location with rfl | ⟨above, name, rfl⟩
  · exact absurd rfl nonempty
  rw [List.concat_eq_append] at named ⊢
  obtain ⟨lead, eq, _⟩ := exists_lead above name
  have isName : IsName name := named name (by simp)
  obtain ⟨front, last, split⟩ := List.eq_nil_or_concat name.toList |>.resolve_left fun empty =>
    isName.nonempty (String.toList_inj.1 empty)
  have differ : last ≠ '/' := by
    rintro rfl
    exact isName.noSlash (by simp [split])
  rw [Workspace.endsWithSlash, eq, split, List.concat_eq_append, ← List.cons_append,
    ← List.append_assoc, List.getLast?_concat]
  simpa using differ

/-- A path below a location is the text of the location that it leads to, with the slash at its end.
-/
theorem PathText.append_eq_absolute (named : location.Named) (nonempty : location ≠ [])
    (stays : ".." ∉ segments path)
    : append (absolute location) path
      = absolute (location ++ PathText.place path)
        ++ if Workspace.endsWithSlash path then "/" else "" := by
  by_cases empty : path = ""
  · subst empty
    have base := spells_absolute named
    have nothing : PathText.place "" = [] ∧ Workspace.endsWithSlash "" = false := by decide
    have noSlash := endsWithSlash_absolute named nonempty
    rw [Workspace.endsWithSlash, beq_eq_false_iff_ne] at noSlash
    rw [append, if_neg base.ne_empty, if_pos rfl, nothing.1, nothing.2, List.append_nil,
      normalize_of_absolute base.isAbsolute base.place_eq.2, base.place_eq.1,
      if_neg fun both => noSlash both.2]
    rfl
  · obtain ⟨eq, isAbsolute, stays', place_eq⟩ := append_eq_normalize named empty stays
    have characters : path.toList ≠ [] := fun none => empty (String.toList_inj.1 none)
    have sameEnd : (absolute location ++ "/" ++ path).toList.getLast? = path.toList.getLast? := by
      rw [String.toList_append, List.getLast?_append, List.getLast?_eq_some_getLast characters]
      rfl
    rw [eq, normalize_of_absolute isAbsolute stays', place_eq, sameEnd]
    simp [Workspace.endsWithSlash, nonempty]

section

variable (spells : Spells path location)

include spells

theorem PathText.Spells.segments_eq_ite
    : segments path
      = "" :: (location ++ if Workspace.endsWithSlash path then [""] else []) := by
  cases spells with
  | plain named eq =>
      subst eq
      by_cases atTop : location = []
      · subst atTop
        decide
      · rw [endsWithSlash_absolute named atTop, segments_absolute named atTop]
        simp
  | slashed named nonempty eq =>
      subst eq
      have slash : Workspace.endsWithSlash (absolute location ++ "/") = true := by
        simp [Workspace.endsWithSlash]
      rw [slash, segments_slashed named nonempty]
      rfl

/-- A spelled path turns at the top of the tree, and where it ends if a slash is there. -/
theorem Workspace.turns_of_spells (workspace : Workspace)
    : workspace.turns path = [] :: if endsWithSlash path then [location] else [] := by
  rw [turns, if_pos spells.isAbsolute, spells.segments_eq_ite, PathText.turns, if_pos (by decide),
    PathText.turns_append spells.named]
  split
  · rw [PathText.turns, if_pos (by decide)]
    rfl
  · rfl

theorem Workspace.checkWay_of_spells (workspace : Workspace)
    : workspace.checkWay path
      = if endsWithSlash path then workspace.tree.checkDirectory location else .ok () := by
  rw [checkWay, turns_of_spells spells]
  split
  · change (workspace.tree.checkDirectory location >>= fun _ => pure ()) = _
    exact bind_pure _
  · rfl

/-- A path that spells a location can be followed without the slash at its end. -/
theorem Workspace.checkWay_trimmed (workspace : Workspace)
    : workspace.checkWay (PathText.trimmed path) = .ok () := by
  rw [spells.trimmed_eq, checkWay_of_spells (PathText.spells_absolute spells.named)]
  by_cases atTop : location = []
  · subst atTop
    rfl
  · rw [PathText.endsWithSlash_absolute spells.named atTop]
    rfl

theorem Workspace.locate_of_spells (workspace : Workspace) : workspace.locate path = location :=
  spells.locate_eq _

theorem Workspace.find_of_spells (workspace : Workspace)
    : workspace.find path
      = match workspace.tree.find location with
        | .ok (.file content) =>
          if endsWithSlash path then .error .notDirectory else .ok (.file content)
        | found => found := by
  rw [find, if_neg spells.ne_empty, checkWay_of_spells spells, locate_of_spells spells]
  by_cases slash : endsWithSlash path
  · rw [if_pos slash, FileTree.checkDirectory]
    rcases workspace.tree.find location with _ | _ | _ <;> simp [slash, bind, Except.bind]
  · rw [if_neg slash]
    rcases workspace.tree.find location with _ | _ | _ <;> simp [slash, bind, Except.bind]

omit spells in
/-- An absolute text leads to what stands at its location. -/
theorem Workspace.find_absolute (named : location.Named) (workspace : Workspace)
    : workspace.find (PathText.absolute location) = workspace.tree.find location := by
  rw [find_of_spells (PathText.spells_absolute named)]
  by_cases atTop : location = []
  · subst atTop
    rfl
  · rw [PathText.endsWithSlash_absolute named atTop]
    rcases workspace.tree.find location with _ | _ | _ <;> rfl

theorem Workspace.writeFile_of_spells (workspace : Workspace) (content : Bytes)
    : workspace.writeFile path content
      = if endsWithSlash path then
          (workspace.tree.checkParent location).bind fun _ => .error .isDirectory
        else workspace.tree.writeFile location content := by
  rw [writeFile, if_neg spells.ne_empty, checkWay_trimmed spells, locate_of_spells spells]
  rfl

/-- Making the directory that a path spells: nothing but that directory and those above it. -/
theorem Workspace.makeDirectories_of_spells (workspace : Workspace)
    : workspace.makeDirectories path
      = match workspace.tree.makeDirectories location with
        | .ok tree => (.ok (), tree)
        | .error errno =>
          (.error (if endsWithSlash path then .notDirectory else errno), workspace.tree) := by
  have top : workspace.tree.makeDirectories [] = .ok workspace.tree := rfl
  rw [makeDirectories, if_neg spells.ne_empty, turns_of_spells spells, locate_of_spells spells]
  by_cases slash : endsWithSlash path
  · rcases made : workspace.tree.makeDirectories location with errno | tree
    · simp [slash, FileTree.makeEach, top, made]
    · have folder := (FileTree.addsFolders_of_makeDirectories made).2.1
      have again : tree.makeDirectories location = .ok tree := by
        rw [FileTree.makeDirectories, folder]
      simp [slash, FileTree.makeEach, top, made, again]
  · rcases made : workspace.tree.makeDirectories location with errno | tree <;>
      simp [slash, FileTree.makeEach, top, made]

theorem Workspace.blamedPath_of_spells {errno : Errno} (after : FileTree)
    (failed : workspace.tree.makeDirectories location = .error errno)
    : workspace.blamedPath path after = path := by
  have missing : workspace.find path ≠ .error .noEntry := by
    rw [find_of_spells spells, FileTree.find]
    rw [FileTree.makeDirectories] at failed
    rcases found : workspace.tree.entry? location with _ | _ | _
    · by_cases blocked : workspace.tree.isBlocked location
      · simp [blocked]
      · simp [found, blocked] at failed
    · by_cases slash : endsWithSlash path <;> simp [slash]
    · simp [found] at failed
  rw [blamedPath]
  split
  · contradiction
  · rfl

end

-----------------------------------------------------------------------------------------
-- Making directories
-----------------------------------------------------------------------------------------

theorem FileTree.file?_makeEach (tree : FileTree) (locations : List Location) (place : Location)
    : (tree.makeEach locations).2.file? place = tree.file? place := by
  induction locations generalizing tree with
  | nil => rfl
  | cons location locations ih =>
      rw [makeEach]
      split
      · rfl
      · rename_i made
        rw [ih, (addsFolders_of_makeDirectories made).1.file?_eq]

/-- Making directories leaves all files as they are, even if it fails on the way. -/
theorem Workspace.file?_makeDirectories (workspace : Workspace) (path : String) (place : Location)
    : (workspace.makeDirectories path).2.file? place = workspace.tree.file? place := by
  have each := workspace.tree.file?_makeEach (workspace.turns path) place
  rw [makeDirectories]
  split
  · rfl
  · split
    · rename_i passed
      rwa [passed] at each
    · rename_i passed
      rw [passed] at each
      split
      · exact each
      · rename_i made
        rw [(FileTree.addsFolders_of_makeDirectories made).1.file?_eq]
        exact each

end Stencil.Files
