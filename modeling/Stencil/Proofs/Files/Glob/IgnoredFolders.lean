import Stencil.Proofs.Files.Glob.BelowRegex
import Stencil.Proofs.Files.Glob.Findings

/-! Directories that a search leaves out. If all that stands below a directory is ignored and the
path of the directory spells itself in a pattern, the search does not enter the directory, and does
not find a file in its place.
-/

namespace Stencil.Files.Glob

variable {names folder : Location} {text : List Char}

-----------------------------------------------------------------------------------------
-- Paths that spell themselves
-----------------------------------------------------------------------------------------

/-- Names of characters that stand for themselves in a pattern. -/
def PlainNames (names : Location) : Prop := ∀ name ∈ names, ∀ c ∈ name.toList, IsSpelled c

instance (names : Location) : Decidable (PlainNames names) :=
  decidable_of_iff ((names.all fun name => name.toList.all fun c => IsSpelled c) = true)
    (by simp [PlainNames])

theorem isLiteral_join (named : names.Named) (nonempty : names ≠ []) (plain : PlainNames names)
    : IsLiteral (PathText.join names).toList := by
  have notEmpty : ¬ IsName (String.ofList []) := fun isName => isName.nonempty rfl
  have notHere : ¬ IsName (String.ofList ['.']) := fun isName => isName.notHere rfl
  refine ⟨?_, ?_, fun atStart => ?_, ?_, ?_, fun atEnd => ?_⟩
  · exact fun empty => PathText.join_ne_empty named nonempty (String.toList_inj.1 empty)
  · intro c member
    rw [PathText.toList_join] at member
    rcases Text.exists_of_mem_joinWith member with isSlash | ⟨piece, inPieces, inPiece⟩
    · exact .inr (.inr (.inl (List.mem_singleton.1 isSlash)))
    · obtain ⟨name, inNames, rfl⟩ := List.mem_map.1 inPieces
      exact plain name inNames c inPiece
  · obtain ⟨more, eq⟩ := List.head?_eq_some_iff.1 atStart
    exact notEmpty (isName_of_join_eq named nonempty [] more eq [] (by simp [Text.splitOn]))
  · rintro ⟨more, eq⟩
    -- The slash is the one behind the text, or stands in it.
    rcases List.eq_nil_or_concat' more with rfl | ⟨more, last, rfl⟩
    · have isDot : PathText.join names = "." := by
        rw [← String.toList_inj]
        exact (List.append_left_inj ['/']).1 eq.symm
      have same := PathText.segments_join named nonempty
      have only : PathText.segments "." = ["."] := by decide
      rw [isDot, only] at same
      exact (named "." (same ▸ List.mem_singleton_self _)).notHere rfl
    · have within := (List.append_inj' ((List.append_assoc _ _ _).trans eq) rfl).1
      exact notHere (isName_of_join_eq named nonempty ['.'] more within.symm ['.']
        (by simp [Text.splitOn]))
  · rintro ⟨left, right, eq⟩
    exact notEmpty (isName_of_join_eq named nonempty left ('/' :: right) (by simp [← eq]) []
      (by simp [Text.splitOn]))
  · obtain ⟨more, eq⟩ := List.getLast?_eq_some_iff.1 atEnd
    exact notEmpty (isName_of_join_eq named nonempty more [] eq [] (by simp [Text.splitOn]))

-----------------------------------------------------------------------------------------
-- Patterns that are ignored
-----------------------------------------------------------------------------------------

section

variable (isLiteral : IsLiteral text)

include isLiteral

theorem IsLiteral.not_mem {c : Char} (isMark : ¬ IsSpelled c) : c ∉ text :=
  fun member => isMark (isLiteral.chars c member)

theorem apart_folderPattern : ¬ ['/', '/'] <:+: folderPattern text := by
  have whole : folderPattern text = text ++ ['/'] ++ ['*'] ++ ['*'] := by simp [folderPattern]
  rw [whole, List.infix_concat_iff, List.infix_concat_iff, List.infix_concat_iff]
  rintro (⟨left, eq⟩ | ⟨left, eq⟩ | ⟨left, eq⟩ | isWithin)
  · simpa using congrArg List.getLast? eq
  · simpa using congrArg List.getLast? eq
  · have atEnd : left ++ ['/'] = text :=
      (List.append_inj' ((List.append_assoc _ _ _).trans eq) rfl).1
    exact isLiteral.ends (by simp [← atEnd])
  · exact isLiteral.apart isWithin

theorem positive_folderPattern : positive (folderPattern text) = folderPattern text := by
  obtain ⟨c, more, rfl⟩ := List.exists_cons_of_ne_nil isLiteral.nonempty
  have differ : c ≠ '!' := by
    rintro rfl
    exact isLiteral.not_mem (c := '!') (by decide) (List.mem_cons_self ..)
  simp [positive, isNegative, folderPattern, differ]

/-- A pattern that is ignored takes paths away, unless nothing is searched for. -/
theorem mem_negatives {query : GlobQuery} {plan : Plan} (h : planOf query = .ok plan)
    (searched : plan.lookups ++ plan.searches ≠ [])
    (ignored : String.ofList (folderPattern text) ∈ query.ignored)
    : folderPattern text ∈ plan.negatives := by
  simp only [planOf] at h
  cases found : expandAll query.patterns with
  | error fault =>
      rw [found] at h
      cases h
  | ok texts =>
  cases found' : expandAll query.ignored with
  | error fault =>
      rw [found, found'] at h
      cases h
  | ok ignoredTexts =>
  rw [found, found'] at h
  simp only [bind, Except.bind] at h
  split at h
  · cases h
  split at h
  · cases h
    exact absurd rfl searched
  split at h
  · cases h
  cases h
  have noBraces : '\x7d' ∉ folderPattern text := by
    simp [folderPattern, isLiteral.not_mem (c := '\x7d') (by decide)]
  have member : folderPattern text ∈ ignoredTexts :=
    mem_expandAll found' ignored (by simp [folderPattern]) noBraces (apart_folderPattern isLiteral)
  rw [← positive_folderPattern isLiteral]
  exact List.mem_map_of_mem (List.mem_append_right _ member)

theorem IsLiteral.withoutDot_eq : Expression.withoutDot text = text :=
  withoutDot_eq_self fun atStart => isLiteral.notHere (atStart.trans (List.prefix_append _ _))

variable (group : Group) {negatives : List (List Char)} (member : folderPattern text ∈ negatives)

include member

/-- The directory is not looked at. -/
theorem enters_eq_false : (Filter.ofGroup group negatives).enters text = false := by
  have covers : coversFolders (folderPattern text) = true := by
    rw [coversFolders, Bool.or_eq_true, List.isSuffixOf_iff_suffix]
    exact .inl (List.suffix_append _ _)
  have covered : ((negatives.filter coversFolders).map (regexOf false)).any (·.isFoundIn text)
      = true := by
    rw [List.any_map, List.any_eq_true]
    exact ⟨_, List.mem_filter.2 ⟨member, covers⟩, isFoundIn_folderPattern isLiteral⟩
  simp only [Filter.enters, Filter.ofGroup, isLiteral.withoutDot_eq, covered, Bool.not_true,
    Bool.and_false]

/-- A path that the ignored pattern matches is not asked for. -/
theorem accepts_eq_false {path : List Char}
    (found : (regexOf true (folderPattern text)).isFoundIn (Expression.withoutDot path) = true)
    (absolute : List Char)
    : (Filter.ofGroup group negatives).accepts path absolute = false := by
  obtain ⟨c, more, rfl⟩ := List.exists_cons_of_ne_nil isLiteral.nonempty
  have isRelative : (folderPattern (c :: more)).head? ≠ some '/' := isLiteral.starts
  have isTaken : ((negatives.partition (·.head? == some '/')).2.map (regexOf true)).any
      (·.isFoundIn (Expression.withoutDot path)) = true := by
    rw [List.any_map, List.any_eq_true]
    refine ⟨folderPattern (c :: more), ?_, found⟩
    rw [List.partition_eq_filter_filter, List.mem_filter]
    exact ⟨member, by simpa using isRelative⟩
  simp only [Filter.accepts, Filter.ofGroup, isTaken, Bool.not_true, Bool.and_false,
    Bool.false_and]

end

-----------------------------------------------------------------------------------------
-- What is not found
-----------------------------------------------------------------------------------------

/-- A directory above a file is among those between the base and the file, by induction on its
names.
-/
theorem mem_foldersBetween {above below : List (List Char)} (nonempty : above ≠ [])
    (isBelow : below ≠ []) (base : List Char)
    : base ++ Text.joinWith ['/'] above ∈ foldersBetween base (above ++ below) := by
  induction above generalizing base with
  | nil => exact absurd rfl nonempty
  | cons name above ih =>
      have rest : above ++ below ≠ [] := List.append_ne_nil_of_right_ne_nil above isBelow
      obtain ⟨next, more, eq⟩ := List.exists_cons_of_ne_nil rest
      rw [List.cons_append, eq, foldersBetween, ← eq]
      · cases above with
        | nil => exact List.mem_cons_self ..
        | cons name' above =>
            have later := ih (List.cons_ne_nil _ _) (base ++ name ++ ['/'])
            exact List.mem_cons_of_mem _ (by simpa using later)
      · exact eq ▸ rest

/-- A search of all that stands below a place finds no file at or below a directory that is ignored.
-/
theorem Found.not_below {plan : Plan} {directory : String} {workspace : Workspace}
    {texts : List (List Char)} {path : List Char}
    (wellFormed : workspace.tree.WellFormed) (lookups : plan.lookups = [])
    (searches : plan.searches = [⟨['.'], texts⟩]) (named : folder.Named) (nonempty : folder ≠ [])
    (plain : PlainNames folder)
    (ignored : folderPattern (PathText.join folder).toList ∈ plan.negatives)
    (h : Found plan directory workspace path)
    : ¬ folder <+: PathText.place (String.ofList path) := by
  cases h with
  | spelled member _ _ _ =>
      rw [lookups] at member
      exact absurd member List.not_mem_nil
  | @matched group names member stands eq entered accepted =>
      rw [searches, List.mem_singleton] at member
      subst member
      obtain ⟨content, stands⟩ := wellFormed.mem_filesBelow_iff.1 stands
      have isNamed : Location.Named names :=
        (wellFormed.named_of_entry? (FileTree.file?_eq_some_iff.1 stands)).right
      have path_eq : path = (PathText.join names).toList := by
        rw [eq, PathText.toList_join]
        rfl
      have isLiteral := isLiteral_join named nonempty plain
      rw [path_eq, String.ofList_toList, PathText.place_join isNamed]
      rintro ⟨below, same⟩
      by_cases isBelow : below = []
      · rw [isBelow, List.append_nil] at same
        rw [path_eq, ← same, accepts_eq_false isLiteral _ ignored ?_] at accepted
        · cases accepted
        · rw [isLiteral.withoutDot_eq]
          exact isFoundIn_folderPattern isLiteral
      · have passed : (PathText.join folder).toList
            ∈ foldersBetween (basePrefix ['.']) (names.map String.toList) := by
          rw [← same, List.map_append, PathText.toList_join]
          exact mem_foldersBetween (by simpa using nonempty) (by simpa using isBelow) []
        have closed := enters_eq_false isLiteral ⟨['.'], texts⟩ ignored
        rw [entered _ passed] at closed
        cases closed

/-- A path is made of the names that it leads through, on one line, perhaps behind a dot and a slash.
-/
structure SpellsNames (path : String) : Prop where
  eq : Expression.withoutDot path.toList = (PathText.join (PathText.place path)).toList
  line : ∀ c ∈ path.toList, UnitSet.lineEnds.has c.toNat = false

instance (path : String) : Decidable (SpellsNames path) :=
  decidable_of_iff
    (Expression.withoutDot path.toList = (PathText.join (PathText.place path)).toList
      ∧ (path.toList.all fun c => !UnitSet.lineEnds.has c.toNat) = true)
    ⟨fun both => ⟨both.1, by simpa using both.2⟩,
      fun spells => ⟨spells.eq, by simpa using spells.line⟩⟩

/-- No path that spells its names is found at or below a directory that is ignored. -/
theorem Found.not_below_of_spellsNames {plan : Plan} {directory : String} {workspace : Workspace}
    {path : List Char} (named : folder.Named) (nonempty : folder ≠ []) (plain : PlainNames folder)
    (ignored : folderPattern (PathText.join folder).toList ∈ plan.negatives)
    (spells : SpellsNames (String.ofList path))
    (stays : ".." ∉ PathText.segments (String.ofList path))
    (h : Found plan directory workspace path)
    : ¬ folder <+: PathText.place (String.ofList path) := by
  rintro ⟨below, place⟩
  obtain ⟨group, _, accepted⟩ := h.exists_group
  have isLiteral := isLiteral_join named nonempty plain
  have path_eq : Expression.withoutDot path = (PathText.join (folder ++ below)).toList := by
    rw [place, ← spells.eq, String.toList_ofList]
  have line (c : Char) (member : c ∈ Expression.withoutDot path)
      : UnitSet.lineEnds.has c.toNat = false :=
    spells.line c (String.toList_ofList ▸ (withoutDot_suffix path).subset member)
  have found : (regexOf true (folderPattern (PathText.join folder).toList)).isFoundIn
      (Expression.withoutDot path) = true := by
    by_cases isBelow : below = []
    · rw [path_eq, isBelow, List.append_nil]
      exact isFoundIn_folderPattern isLiteral
    · have named' : Location.Named (folder ++ below) := place ▸ PathText.named_place stays
      rw [PathText.toList_join_append nonempty isBelow] at path_eq
      rw [path_eq]
      exact isFoundIn_folderPattern_below isLiteral named'.right isBelow fun c member =>
        line c (by simp [path_eq, member])
  rw [accepts_eq_false isLiteral _ ignored found] at accepted
  cases accepted

end Stencil.Files.Glob
