import Stencil.Files.Glob
import Stencil.Proofs.Files.DiskRuns
import Stencil.Proofs.Related

/-! What searches for files find. A search changes nothing, finds no path twice, and each path that
it finds leads to a file.
-/

namespace Stencil.Files.Glob

variable {workspace after : Workspace} {plan : Plan} {directory : String}

/-- A path is found by a plan: a text that spells it leads to a file, or it leads from the base of
a group to a file below, through directories that are looked at. The filter of its group accepts it.
-/
inductive Found (plan : Plan) (directory : String) (workspace : Workspace) (path : List Char) : Prop
  | spelled {group : Group} {content : Bytes} (member : group ∈ plan.lookups)
    (isText : path ∈ group.texts)
    (stands : workspace.find (PathText.resolve directory (String.ofList path))
      = .ok (.file content))
    (accepted : (Filter.ofGroup group plan.negatives).accepts path
      (PathText.resolve directory (String.ofList path)).toList = true)
  | matched {group : Group} {names : Location} (member : group ∈ plan.searches)
    (below : names ∈ workspace.tree.filesBelow
      (workspace.locate (PathText.resolve directory (String.ofList group.base))))
    (eq : path = basePrefix group.base ++ Text.joinWith ['/'] (names.map String.toList))
    (entered : ∀ folder ∈ foldersBetween (basePrefix group.base) (names.map String.toList),
      (Filter.ofGroup group plan.negatives).enters folder = true)
    (accepted : (Filter.ofGroup group plan.negatives).accepts path
      (PathText.resolve directory (String.ofList path)).toList = true)

/-- What is found belongs to a group, whose filter accepts it. -/
theorem Found.exists_group {path : List Char} (h : Found plan directory workspace path)
    : ∃ group ∈ plan.lookups ++ plan.searches,
        (Filter.ofGroup group plan.negatives).accepts path
          (PathText.resolve directory (String.ofList path)).toList = true := by
  cases h with
  | spelled member _ _ accepted => exact ⟨_, List.mem_append_left _ member, accepted⟩
  | matched member _ _ _ accepted => exact ⟨_, List.mem_append_right _ member, accepted⟩

-----------------------------------------------------------------------------------------
-- Reading
-----------------------------------------------------------------------------------------

theorem readsOnly_lookUp (directory : String) (text : List Char)
    : ReadsOnly (lookUp directory text : ExceptT Fault (StateM Workspace) _) := by
  refine (readsOnly_isDirectory _).attempt.bind fun result => ?_
  split
  · exact readsOnly_pure _
  · split
    · exact readsOnly_pure _
    · exact readsOnly_throw _

theorem readsOnly_filesBelow (path : String)
    : ReadsOnly (filesBelow path : ExceptT Fault (StateM Workspace) _) := by
  refine (readsOnly_files _).attempt.bind fun result => ?_
  split
  · exact readsOnly_pure _
  · split
    · exact readsOnly_pure _
    · exact readsOnly_throw _

theorem readsOnly_search (plan : Plan) (directory : String)
    : ReadsOnly (search plan directory : ExceptT Fault (StateM Workspace) _) := by
  refine (readsOnly_mapM (fun group => ?_) _).bind fun _ =>
    (readsOnly_mapM (fun group => ?_) _).bind fun _ => readsOnly_pure _
  · exact (readsOnly_mapM (readsOnly_lookUp directory) _).bind fun _ => readsOnly_pure _
  · exact (readsOnly_filesBelow _).bind fun _ => readsOnly_pure _

theorem readsOnly_run (query : GlobQuery)
    : ReadsOnly (run query : ExceptT GlobFault (StateM Workspace) _) := by
  rw [run]
  split
  · exact readsOnly_throw _
  · refine ReadsOnly.bind (fun _ => rfl) fun directory => ?_
    split
    · exact readsOnly_throw _
    · exact ((readsOnly_search _ _).adapt _).bind fun _ => readsOnly_pure _

-----------------------------------------------------------------------------------------
-- What is found
-----------------------------------------------------------------------------------------

theorem lookUp_eq_ok {text : List Char} {found : List (List Char)}
    (h : outcome (lookUp directory text) workspace = (.ok found, after))
    : ∀ path ∈ found, path = text ∧ ∃ content,
        workspace.find (PathText.resolve directory (String.ofList text))
        = .ok (.file content) := by
  obtain ⟨result, middle, looked, h⟩ := bind_eq_ok.1 h
  have looked := attempt_eq_ok.1 looked
  cases result with
  | error fault =>
      simp only at h
      split at h
      · cases h
        exact fun path member => absurd member List.not_mem_nil
      · cases h
  | ok isDirectory =>
      cases h
      obtain ⟨entry, found, rfl⟩ := isDirectory_eq_ok looked
      intro path member
      cases entry with
      | directory => exact absurd member List.not_mem_nil
      | file content => exact ⟨List.mem_singleton.1 member, content, found⟩

theorem filesBelow_eq_ok {path : String} {files : List (List String)}
    (h : outcome (filesBelow path) workspace = (.ok files, after))
    : files ⊆ workspace.tree.filesBelow (workspace.locate path) := by
  obtain ⟨result, middle, listed, h⟩ := bind_eq_ok.1 h
  have listed := attempt_eq_ok.1 listed
  cases result with
  | error fault =>
      simp only at h
      split at h
      · cases h
        exact List.nil_subset _
      · cases h
  | ok names =>
      cases h
      exact files_eq_ok listed ▸ List.Subset.refl _

/-- The files below a directory are listed, and nothing changes. -/
theorem outcome_filesBelow {path : String} {location : Location}
    (spells : PathText.Spells path location)
    (isFolder : workspace.tree.entry? location = some .directory)
    : outcome (filesBelow path) workspace
      = (.ok (workspace.tree.filesBelow location), workspace) := by
  have stands : workspace.find path = .ok .directory :=
    (Workspace.find_eq_directory_iff spells).2 isFolder
  have listed : outcome (Disk.files path) workspace
      = (.ok (workspace.tree.filesBelow location), workspace) := by
    simp only [Disk.files, outcome_bind, outcome_get, outcome_orFault, stands, Except.mapError,
      outcome_pure, Workspace.locate_of_spells spells]
  rw [filesBelow, outcome_bind, outcome_attempt, listed]
  rfl

theorem mem_matching_iff {group : Group} {filter : Filter} {absoluteOf : List Char → List Char}
    {files : List (List String)} {path : List Char}
    : path ∈ matching group filter absoluteOf files
      ↔ ∃ names ∈ files,
          path = basePrefix group.base ++ Text.joinWith ['/'] (names.map String.toList)
          ∧ (∀ folder ∈ foldersBetween (basePrefix group.base) (names.map String.toList),
              filter.enters folder = true)
          ∧ filter.accepts path (absoluteOf path) = true := by
  simp only [matching, List.mem_filterMap, Option.ite_none_right_eq_some, Option.some.injEq,
    Bool.and_eq_true, List.all_eq_true]
  refine exists_congr fun names => and_congr_right fun _ => ⟨?_, ?_⟩
  · rintro ⟨⟨entered, accepted⟩, rfl⟩
    exact ⟨rfl, entered, accepted⟩
  · rintro ⟨rfl, entered, accepted⟩
    exact ⟨⟨entered, accepted⟩, rfl⟩

/-- What is left without repetitions, by induction on what has not been looked at. -/
theorem distinct_spec (paths : List (List Char))
    : (distinct paths).Nodup ∧ distinct paths ⊆ paths := by
  let add (found : List (List Char)) (path : List Char) : List (List Char) :=
    if found.any fun other => Expression.withoutDot other == Expression.withoutDot path then found
    else path :: found
  suffices key : ∀ (left found : List (List Char)), found.Nodup → found ⊆ paths → left ⊆ paths →
      (left.foldl add found).Nodup ∧ left.foldl add found ⊆ paths by
    obtain ⟨nodup, subset⟩ := key paths [] List.nodup_nil (List.nil_subset _) (List.Subset.refl _)
    exact ⟨List.pairwise_reverse.2 (nodup.imp Ne.symm),
      fun path member => subset (List.mem_reverse.1 member)⟩
  intro left
  induction left with
  | nil => exact fun found nodup subset _ => ⟨nodup, subset⟩
  | cons path left ih =>
      intro found nodup subset within
      obtain ⟨isIn, within⟩ := List.cons_subset.1 within
      by_cases isRepeated : (found.any fun other =>
        Expression.withoutDot other == Expression.withoutDot path) = true
      · have kept : add found path = found := if_pos isRepeated
        rw [List.foldl_cons, kept]
        exact ih found nodup subset within
      · have added : add found path = path :: found := if_neg isRepeated
        rw [List.foldl_cons, added]
        refine ih _ (List.nodup_cons.2 ⟨fun member => isRepeated ?_, nodup⟩)
          (List.cons_subset.2 ⟨isIn, subset⟩) within
        exact List.any_eq_true.2 ⟨path, member, beq_self_eq_true _⟩

/-- A path is left, or an earlier one with the same names. The induction is on what has not been
looked at.
-/
theorem exists_mem_distinct {paths : List (List Char)} {path : List Char} (member : path ∈ paths)
    : ∃ other ∈ distinct paths, Expression.withoutDot other = Expression.withoutDot path := by
  let add (found : List (List Char)) (path : List Char) : List (List Char) :=
    if found.any fun other => Expression.withoutDot other == Expression.withoutDot path then found
    else path :: found
  let Has (found : List (List Char)) : Prop :=
    ∃ other ∈ found, Expression.withoutDot other = Expression.withoutDot path
  have kept {found : List (List Char)} (next : List Char) (has : Has found)
      : Has (add found next) := by
    obtain ⟨other, isIn, same⟩ := has
    refine ⟨other, ?_, same⟩
    simp only [add]
    split
    · exact isIn
    · exact List.mem_cons_of_mem _ isIn
  have added (found : List (List Char)) : Has (add found path) := by
    by_cases isRepeated : (found.any fun other =>
      Expression.withoutDot other == Expression.withoutDot path) = true
    · have stays : add found path = found := if_pos isRepeated
      rw [stays]
      simpa using List.any_eq_true.1 isRepeated
    · have grows : add found path = path :: found := if_neg isRepeated
      exact ⟨path, grows ▸ List.mem_cons_self .., rfl⟩
  have key (left : List (List Char))
      : ∀ found, path ∈ left ∨ Has found → Has (left.foldl add found) := by
    induction left with
    | nil => exact fun found has => has.resolve_left List.not_mem_nil
    | cons next left ih =>
        rintro found (isIn | has)
        · rcases List.mem_cons.1 isIn with rfl | later
          · exact ih _ (.inr (added found))
          · exact ih _ (.inl later)
        · exact ih _ (.inr (kept next has))
  obtain ⟨other, isIn, same⟩ := key paths [] (.inl member)
  exact ⟨other, List.mem_reverse.2 isIn, same⟩

/-- The paths that a search finds. -/
theorem search_eq_ok {paths : List (List Char)}
    (h : outcome (search plan directory) workspace = (.ok paths, after))
    : paths.Nodup ∧ ∀ path ∈ paths, Found plan directory workspace path := by
  have readsLookups (group : Group)
      : ReadsOnly (do
          let paths ← group.texts.mapM (lookUp directory)
          return paths.flatten.filter fun path =>
            (Filter.ofGroup group plan.negatives).accepts path
              (PathText.resolve directory (String.ofList path)).toList
          : ExceptT Fault (StateM Workspace) _) :=
    (readsOnly_mapM (readsOnly_lookUp directory) _).bind fun _ => readsOnly_pure _
  have readsSearches (group : Group)
      : ReadsOnly (do
          let files ← filesBelow (PathText.resolve directory (String.ofList group.base))
          return matching group (Filter.ofGroup group plan.negatives)
            (fun path => (PathText.resolve directory (String.ofList path)).toList) files
          : ExceptT Fault (StateM Workspace) _) :=
    (readsOnly_filesBelow _).bind fun _ => readsOnly_pure _
  obtain ⟨spelled, _, looked, h⟩ := bind_eq_ok.1 h
  cases (readsOnly_mapM readsLookups plan.lookups).eq looked
  obtain ⟨found, _, searched, h⟩ := bind_eq_ok.1 h
  cases (readsOnly_mapM readsSearches plan.searches).eq searched
  cases h
  obtain ⟨nodup, subset⟩ := distinct_spec (spelled ++ found).flatten
  refine ⟨nodup, fun path member => ?_⟩
  obtain ⟨paths, inResults, inPaths⟩ := List.mem_flatten.1 (subset member)
  rcases List.mem_append.1 inResults with inSpelled | inFound
  · obtain ⟨group, inLookups, got⟩ :=
      mem_of_forall₂ (forall₂_of_mapM readsLookups looked) inSpelled
    obtain ⟨results, _, each, got⟩ := bind_eq_ok.1 got
    cases got
    obtain ⟨inPaths, accepted⟩ := List.mem_filter.1 inPaths
    obtain ⟨result, inEach, inResult⟩ := List.mem_flatten.1 inPaths
    obtain ⟨text, inTexts, one⟩ :=
      mem_of_forall₂ (forall₂_of_mapM (readsOnly_lookUp directory) each) inEach
    obtain ⟨rfl, content, stands⟩ := lookUp_eq_ok one path inResult
    exact .spelled inLookups inTexts stands accepted
  · obtain ⟨group, inSearches, got⟩ :=
      mem_of_forall₂ (forall₂_of_mapM readsSearches searched) inFound
    obtain ⟨files, _, listed, got⟩ := bind_eq_ok.1 got
    cases got
    obtain ⟨names, inFiles, eq, entered, accepted⟩ := mem_matching_iff.1 inPaths
    exact .matched inSearches (filesBelow_eq_ok listed inFiles) eq entered accepted

/-- The paths that a query asks for. -/
theorem run_eq_ok {query : GlobQuery} {files : List String} (isRelative : query.isAbsolute = false)
    (h : outcome (run query) workspace = (.ok files, after))
    : ∃ plan,
        planOf query = .ok plan
        ∧ files.Nodup
        ∧ ∀ file ∈ files,
            Found plan
              (PathText.resolve (PathText.absolute workspace.directory) query.directory)
              workspace file.toList := by
  rw [run] at h
  split at h
  · cases h
  obtain ⟨directory, _, located, h⟩ := bind_eq_ok.1 h
  cases located
  split at h
  · cases h
  rename_i plan planned
  obtain ⟨paths, _, searched, h⟩ := bind_eq_ok.1 h
  have searched := adapt_eq_ok.1 searched
  cases (readsOnly_search _ _).eq searched
  rw [isRelative] at h
  cases h
  obtain ⟨nodup, found⟩ := search_eq_ok searched
  refine ⟨plan, planned, ?_, fun file member => ?_⟩
  · exact List.pairwise_map.2 (nodup.imp fun differ same => differ (String.ofList_inj.1 same))
  · obtain ⟨path, inPaths, rfl⟩ := List.mem_map.1 member
    rw [String.toList_ofList]
    exact found path inPaths

-----------------------------------------------------------------------------------------
-- Where paths lead to
-----------------------------------------------------------------------------------------

/-- The text before the names that are matched ends with a slash, and leads where the base does. -/
theorem exists_base {base : List Char} (notHere : base ≠ ['.'])
    : ∃ lead : String,
        String.ofList (basePrefix base) = lead ++ "/"
        ∧ (String.ofList base = lead ∨ String.ofList base = lead ++ "/") := by
  rw [basePrefix, if_neg notHere]
  split
  · rename_i slashed
    obtain ⟨lead, eq⟩ := List.getLast?_eq_some_iff.1 (by simpa using slashed)
    exact ⟨String.ofList lead, by rw [eq, String.ofList_append], .inr (by
      rw [eq, String.ofList_append])⟩
  · exact ⟨String.ofList base, String.ofList_append, .inl rfl⟩

theorem locate_base {location : Location} (named : location.Named) {base lead rest : String}
    (isBase : base = lead ∨ base = lead ++ "/")
    (isRelative : PathText.isAbsolute (lead ++ "/" ++ rest) = false)
    (stays : ".." ∉ PathText.segments (lead ++ "/" ++ rest))
    : PathText.locate location base = location ++ PathText.place lead := by
  have nonempty : lead ≠ "" := by
    rintro rfl
    rw [String.append_assoc, String.empty_append, PathText.isAbsolute_append (by decide)]
      at isRelative
    cases isRelative
  rw [String.append_assoc, PathText.isAbsolute_append nonempty] at isRelative
  rw [PathText.segments_append, List.mem_append, not_or] at stays
  rcases isBase with rfl | rfl
  · exact PathText.locate_of_relative named isRelative stays.1
  · have slashed (text : String) : text ++ "/" = text ++ "/" ++ "" := String.append_empty.symm
    have last : PathText.segments "" = [""] ∧ PathText.place "" = [] := by decide
    rw [PathText.locate_of_relative named]
    · rw [slashed, PathText.place_append, last.2, List.append_nil]
    · rwa [PathText.isAbsolute_append nonempty]
    · rw [slashed, PathText.segments_append, last.1]
      simpa using stays.1

/-- A found path that is not absolute and never goes up leads to a file below the directory. -/
theorem Found.file? {location : Location} {path : List Char}
    (wellFormed : workspace.tree.WellFormed) (named : location.Named)
    (isRelative : PathText.isAbsolute (String.ofList path) = false)
    (stays : ".." ∉ PathText.segments (String.ofList path))
    (h : Found plan (PathText.absolute location) workspace path)
    : ∃ content,
        workspace.tree.file? (location ++ PathText.place (String.ofList path)) = some content := by
  have spells (text : String) := PathText.spells_absolute (PathText.named_locate named text)
  cases h with
  | @spelled _ content _ _ stands _ =>
      rw [PathText.resolve_absolute named] at stands
      rw [← PathText.locate_of_relative named isRelative stays]
      exact ⟨content, Workspace.file?_of_find (spells _) stands⟩
  | @matched group names _ below eq _ _ =>
      rw [PathText.resolve_absolute named, Workspace.locate_of_spells (spells _),
        wellFormed.mem_filesBelow_iff] at below
      obtain ⟨content, stands⟩ := below
      have isNamed : Location.Named names :=
        (wellFormed.named_of_entry? (FileTree.file?_eq_some_iff.1 stands)).right
      have joined : String.ofList path
          = String.ofList (basePrefix group.base) ++ PathText.join names := by
        rw [eq, String.ofList_append, ← PathText.toList_join, String.ofList_toList]
      refine ⟨content, ?_⟩
      by_cases isHere : group.base = ['.']
      · have nothing : String.ofList (basePrefix group.base) = "" := by rw [isHere]; rfl
        have own : PathText.locate location (String.ofList group.base) = location := by
          rw [isHere, PathText.locate_of_relative named (by decide) (by decide)]
          exact List.append_nil _
        rwa [joined, nothing, String.empty_append, PathText.place_join isNamed, ← own]
      · obtain ⟨lead, start, isBase⟩ := exists_base isHere
        rw [joined, start] at isRelative stays ⊢
        rw [locate_base named isBase isRelative stays] at stands
        rwa [PathText.place_append, PathText.place_join isNamed, ← List.append_assoc]

end Stencil.Files.Glob
