import Stencil.Proofs.Files.AlikeReads
import Stencil.Proofs.Files.Glob.Findings

/-! Searching two workspaces. Where the directory of a search has the same content, and the places
that its patterns lead to have the same files at and above them, the search comes to the same, but
for what it finds by way of patterns that lead out of the directory.
-/

namespace Stencil.Files.Glob

variable {first second workspace : Workspace} {location : Location}

-----------------------------------------------------------------------------------------
-- Looking up
-----------------------------------------------------------------------------------------

/-- A text is found if a file stands where it leads to. -/
theorem outcome_lookUp (wellFormed : workspace.tree.WellFormed) (named : location.Named)
    (text : List Char)
    : let place := PathText.locate location (String.ofList text)
      outcome (lookUp (PathText.absolute location) text) workspace
      = (if (workspace.tree.file? place).isSome then .ok [text]
          else if workspace.tree.isBlocked place then
            .error ⟨.notDirectory, actionOn "lstat" (PathText.absolute place)⟩
          else .ok [],
        workspace) := by
  intro place
  have named' : Location.Named place := PathText.named_locate named _
  have looked := outcome_isDirectory (PathText.absolute place) workspace
  rw [Workspace.find_absolute named', FileTree.find] at looked
  rw [lookUp, PathText.resolve_absolute named, outcome_bind, outcome_attempt, FileTree.file?]
  rcases found : workspace.tree.entry? place with _ | content | _ <;> rw [found] at looked
  · by_cases blocked : workspace.tree.isBlocked place
    · simp [place, looked, blocked, Except.map, Except.mapError]
    · simp [place, looked, blocked, Except.map, Except.mapError]
  · simp [place, looked, Except.map, Except.mapError, Entry.isDirectory]
  · have free := wellFormed.isBlocked_eq_false found
    simp [place, looked, free, Except.map, Except.mapError, Entry.isDirectory]

/-- The files below a location are listed, unless a file stands at or above it. -/
theorem outcome_filesBelow_absolute (wellFormed : workspace.tree.WellFormed)
    (named : location.Named)
    : outcome (filesBelow (PathText.absolute location)) workspace
      = (if (workspace.tree.file? location).isSome || workspace.tree.isBlocked location then
            .error ⟨.notDirectory, actionOn "scandir" (PathText.absolute location)⟩
          else .ok (workspace.tree.filesBelow location),
        workspace) := by
  have found := Workspace.find_absolute named workspace
  rw [FileTree.find] at found
  rw [FileTree.file?]
  rcases stands : workspace.tree.entry? location with _ | content | _ <;> rw [stands] at found
  · by_cases blocked : workspace.tree.isBlocked location
    · simp [filesBelow, Disk.files, outcome_bind, found, blocked, Except.mapError]
    · have nothing : workspace.tree.filesBelow location = [] := by
        refine List.eq_nil_iff_forall_not_mem.2 fun names member => ?_
        obtain ⟨content, isFile⟩ := wellFormed.mem_filesBelow_iff.1 member
        rw [FileTree.file?, wellFormed.none_below stands] at isFile
        cases isFile
      simp [filesBelow, Disk.files, outcome_bind, found, blocked, nothing, Except.mapError]
  · simp [filesBelow, Disk.files, outcome_bind, found, Except.mapError]
  · rw [outcome_filesBelow (PathText.spells_absolute named) stands,
      wellFormed.isBlocked_eq_false stands]
    rfl

section

variable (wellFormed : first.tree.WellFormed) (wellFormed' : second.tree.WellFormed)
  (named : location.Named)

include wellFormed wellFormed' named

theorem readsAlike_lookUp {text : List Char}
    (same : SameFilesTo first.tree second.tree (PathText.locate location (String.ofList text)))
    : ReadsAlike Eq first second (lookUp (PathText.absolute location) text)
        (lookUp (PathText.absolute location) text) := by
  refine ⟨_, _, outcome_lookUp wellFormed named text, outcome_lookUp wellFormed' named text, ?_⟩
  rw [same _ List.prefix_rfl, same.isBlocked_eq]
  exact Outcome.related_eq _

theorem readsAlike_filesBelow (same : SameFilesTo first.tree second.tree location)
    : ReadsAlike
        (fun files files' =>
          files = first.tree.filesBelow location ∧ files' = second.tree.filesBelow location)
        first second (filesBelow (PathText.absolute location))
        (filesBelow (PathText.absolute location)) := by
  refine ⟨_, _, outcome_filesBelow_absolute wellFormed named,
    outcome_filesBelow_absolute wellFormed' named, ?_⟩
  rw [same _ List.prefix_rfl, same.isBlocked_eq]
  split
  · exact .error _
  · exact .ok ⟨rfl, rfl⟩

end

-----------------------------------------------------------------------------------------
-- Paths that stay in the directory
-----------------------------------------------------------------------------------------

/-- Whether a path stays in the directory that it is seen from: it is not absolute and never goes up,
a dot and a slash at its start apart.
-/
def staysInside (path : List Char) : Bool :=
  let text := String.ofList (Expression.withoutDot path)
  !PathText.isAbsolute text && !(PathText.segments text).contains ".."

theorem contains_segments_withoutDot (path : List Char)
    : (PathText.segments (String.ofList (Expression.withoutDot path))).contains ".."
      = (PathText.segments (String.ofList path)).contains ".." := by
  unfold Expression.withoutDot
  split
  · rename_i rest
    have split : String.ofList ('.' :: '/' :: rest) = "." ++ "/" ++ String.ofList rest := by
      rw [← String.toList_inj, String.toList_append, String.toList_append, String.toList_ofList,
        String.toList_ofList]
      simp
    have here : PathText.segments "." = ["."] := by decide
    rw [split, PathText.segments_append, here]
    simp
  · rfl

theorem staysInside_eq_true {path : List Char} (isSingle : ¬ ['.', '/', '/'] <+: path)
    (isRelative : PathText.isAbsolute (String.ofList path) = false)
    (stays : ".." ∉ PathText.segments (String.ofList path))
    : staysInside path = true := by
  have isRelative' : PathText.isAbsolute (String.ofList (Expression.withoutDot path)) = false := by
    unfold Expression.withoutDot
    split
    · rename_i rest
      rw [PathText.isAbsolute, String.toList_ofList, beq_eq_false_iff_ne]
      intro slash
      obtain ⟨more, rfl⟩ := List.head?_eq_some_iff.1 slash
      exact isSingle ⟨more, rfl⟩
    · exact isRelative
  simp only [staysInside, isRelative', contains_segments_withoutDot]
  simpa using stays

/-- Below a base that is absolute or goes up no path stays in the directory. -/
theorem staysInside_below {base names : List Char}
    (leaves : PathText.isAbsolute (String.ofList base) = true
      ∨ ".." ∈ PathText.segments (String.ofList base))
    : staysInside (basePrefix base ++ names) = false := by
  have notHere : base ≠ ['.'] := by
    rintro rfl
    revert leaves
    decide
  obtain ⟨lead, start, isBase⟩ := exists_base notHere
  have whole : String.ofList (basePrefix base ++ names) = lead ++ "/" ++ String.ofList names := by
    rw [String.ofList_append, start]
  rcases leaves with isAbsolute | goesUp
  · rw [PathText.isAbsolute, String.toList_ofList, beq_iff_eq] at isAbsolute
    obtain ⟨rest, rfl⟩ := List.head?_eq_some_iff.1 isAbsolute
    obtain ⟨more, eq⟩ : ∃ more, basePrefix ('/' :: rest) = '/' :: more := by
      rw [basePrefix, if_neg notHere]
      split
      · exact ⟨rest, rfl⟩
      · exact ⟨rest ++ ['/'], rfl⟩
    rw [eq]
    simp [staysInside, Expression.withoutDot, PathText.isAbsolute]
  · have goesUp : ".." ∈ PathText.segments lead := by
      rcases isBase with same | same
      · rwa [same] at goesUp
      · have last : PathText.segments "" = [""] := by decide
        rw [same, ← String.append_empty (s := lead ++ "/"), PathText.segments_append, last] at goesUp
        simpa using goesUp
    have contained : (PathText.segments (String.ofList (basePrefix base ++ names))).contains ".."
        = true := by
      rw [whole, PathText.segments_append]
      simp [goesUp]
    simp only [staysInside, contains_segments_withoutDot, contained, Bool.not_true, Bool.and_false]

/-- Leaving out repetitions and leaving out paths commute, where paths that count as repetitions of
each other are left out together. The induction is on what has not been looked at.
-/
theorem filter_distinct {keep : List Char → Bool}
    (respects : ∀ path other, Expression.withoutDot other = Expression.withoutDot path →
      keep other = keep path)
    (paths : List (List Char))
    : (distinct paths).filter keep = distinct (paths.filter keep) := by
  let add (found : List (List Char)) (path : List Char) : List (List Char) :=
    if found.any fun other => Expression.withoutDot other == Expression.withoutDot path then found
    else path :: found
  have key (left : List (List Char))
      : ∀ found, (left.foldl add found).filter keep
          = (left.filter keep).foldl add (found.filter keep) := by
    induction left with
    | nil => exact fun _ => rfl
    | cons path left ih =>
        intro found
        rw [List.foldl_cons, ih, List.filter_cons]
        by_cases kept : keep path = true
        · have repeated : ((found.filter keep).any fun other =>
              Expression.withoutDot other == Expression.withoutDot path)
              = found.any fun other =>
                Expression.withoutDot other == Expression.withoutDot path := by
            rw [List.any_filter]
            congr 1
            funext other
            by_cases same : Expression.withoutDot other = Expression.withoutDot path
            · simp [respects path other same, kept]
            · simp [same]
          rw [if_pos kept, List.foldl_cons]
          congr 1
          simp only [add, repeated]
          split
          · rfl
          · rw [List.filter_cons, if_pos kept]
        · rw [if_neg kept]
          congr 1
          simp only [add]
          split
          · rfl
          · rw [List.filter_cons, if_neg kept]
  change ((paths.foldl add []).reverse).filter keep = ((paths.filter keep).foldl add []).reverse
  rw [List.filter_reverse, key]
  rfl

/-- The filtered paths of several groups, if those of each group are the same. -/
theorem filter_flatten_congr {keep : List Char → Bool} {groups groups' : List (List (List Char))}
    (h : List.Forall₂ (fun paths paths' => paths'.filter keep = paths.filter keep) groups groups')
    : groups'.flatten.filter keep = groups.flatten.filter keep := by
  induction h with
  | nil => rfl
  | cons here _ ih => rw [List.flatten_cons, List.flatten_cons, List.filter_append,
      List.filter_append, here, ih]

section

variable (wellFormed : first.tree.WellFormed) (wellFormed' : second.tree.WellFormed)
  (named : location.Named)

include wellFormed wellFormed' named

/-- The same texts are found. -/
theorem readsAlike_texts {group : Group} {accepts : List Char → Bool}
    (same : ∀ text ∈ group.texts,
      SameFilesTo first.tree second.tree (PathText.locate location (String.ofList text)))
    : let find : ExceptT Fault (StateM Workspace) (List (List Char)) := do
        let paths ← group.texts.mapM (lookUp (PathText.absolute location))
        return paths.flatten.filter accepts
      ReadsAlike Eq first second find find := by
  refine (ReadsAlike.mapM fun text member =>
    readsAlike_lookUp wellFormed wellFormed' named (same text member)).bind
      fun paths paths' each => ?_
  rw [List.forall₂_eq_eq_eq] at each
  exact readsAlike_pure (each ▸ rfl)

/-- A group of patterns finds the same paths, but for those that leave the directory. -/
theorem readsAlike_group {group : Group} {filter : Filter} {absoluteOf : List Char → List Char}
    (listed : second.tree.listed location = first.tree.listed location)
    (same : SameFilesTo first.tree second.tree
      (PathText.locate location (String.ofList group.base)))
    : let find : ExceptT Fault (StateM Workspace) (List (List Char)) := do
        let files ← filesBelow
          (PathText.resolve (PathText.absolute location) (String.ofList group.base))
        return matching group filter absoluteOf files
      ReadsAlike (fun paths paths' => paths'.filter staysInside = paths.filter staysInside)
        first second find find := by
  intro find
  simp only [find, PathText.resolve_absolute named]
  have found := readsAlike_filesBelow wellFormed wellFormed' (PathText.named_locate named _) same
  refine found.bind fun files files' found => readsAlike_pure ?_
  obtain ⟨rfl, rfl⟩ := found
  by_cases leaves : PathText.isAbsolute (String.ofList group.base) = true
      ∨ ".." ∈ PathText.segments (String.ofList group.base)
  · have nothing (files : List (List String))
        : (matching group filter absoluteOf files).filter staysInside = [] := by
      refine List.filter_eq_nil_iff.2 fun path member => ?_
      obtain ⟨names, _, rfl, _⟩ := mem_matching_iff.1 member
      rw [staysInside_below leaves]
      exact Bool.false_ne_true
    rw [nothing, nothing]
  · obtain ⟨isRelative, stays⟩ := not_or.1 leaves
    rw [PathText.locate_of_relative named (by simpa using isRelative) stays,
      FileTree.filesBelow_of_listed_eq listed]

/-- A search finds the same paths, but for those that leave the directory. -/
theorem readsAlike_search {plan : Plan}
    (listed : second.tree.listed location = first.tree.listed location)
    (lookups : ∀ group ∈ plan.lookups, ∀ text ∈ group.texts,
      SameFilesTo first.tree second.tree (PathText.locate location (String.ofList text)))
    (searches : ∀ group ∈ plan.searches,
      SameFilesTo first.tree second.tree (PathText.locate location (String.ofList group.base)))
    : ReadsAlike (fun paths paths' => paths'.filter staysInside = paths.filter staysInside)
        first second (search plan (PathText.absolute location))
        (search plan (PathText.absolute location)) := by
  have respects (path other : List Char)
      (same : Expression.withoutDot other = Expression.withoutDot path)
      : staysInside other = staysInside path := by
    rw [staysInside, staysInside, same]
  refine (ReadsAlike.mapM fun group member =>
    readsAlike_texts wellFormed wellFormed' named (lookups group member)).bind
    fun texts texts' looked => ?_
  refine (ReadsAlike.mapM fun group member =>
    readsAlike_group wellFormed wellFormed' named listed (searches group member)).bind
    fun found found' searched => readsAlike_pure ?_
  rw [List.forall₂_eq_eq_eq] at looked
  rw [filter_distinct respects, filter_distinct respects, looked, List.flatten_append,
    List.flatten_append, List.filter_append, List.filter_append, filter_flatten_congr searched]

/-- Where a query looks has the same files at and above it in two workspaces. -/
structure SameWays (query : GlobQuery) (location : Location) (first second : Workspace) : Prop where
  lookups : ∀ plan, planOf query = .ok plan → ∀ group ∈ plan.lookups, ∀ text ∈ group.texts,
    SameFilesTo first.tree second.tree (PathText.locate location (String.ofList text))
  searches : ∀ plan, planOf query = .ok plan → ∀ group ∈ plan.searches,
    SameFilesTo first.tree second.tree (PathText.locate location (String.ofList group.base))

/-- A query asks for the same files, but for those that are outside the directory. -/
theorem readsAlike_run {query : GlobQuery} (isRelative : query.isAbsolute = false)
    (isHere : query.directory = PathText.absolute location)
    (listed : second.tree.listed location = first.tree.listed location)
    (ways : SameWays query location first second)
    : ReadsAlike
        (fun files files' => files'.filter (staysInside ·.toList)
          = files.filter (staysInside ·.toList))
        first second (run query) (run query) := by
  have located (directory : String)
      : PathText.resolve directory query.directory = PathText.absolute location := by
    rw [isHere, PathText.resolve, (PathText.spells_absolute named).locate_eq]
  have working : ReadsAlike (fun _ _ => True) first second
      (Disk.workingDirectory : StateM Workspace String)
      ((Disk.workingDirectory : StateM Workspace String)
        : ExceptT GlobFault (StateM Workspace) String) :=
    ⟨_, _, rfl, rfl, .ok trivial⟩
  rw [run]
  split
  · exact readsAlike_throw _
  · refine working.bind fun _ _ _ => ?_
    rw [located, located]
    rcases planned : planOf query with fault | plan
    · exact readsAlike_throw _
    · refine ((readsAlike_search wellFormed wellFormed' named listed (ways.lookups plan planned)
        (ways.searches plan planned)).adapt _).bind fun paths paths' same => readsAlike_pure ?_
      have inside : ((fun file : String => staysInside file.toList) ∘ String.ofList) = staysInside :=
        funext fun path => by rw [Function.comp_apply, String.toList_ofList]
      rw [isRelative, if_neg Bool.false_ne_true, if_neg Bool.false_ne_true, List.filter_map,
        List.filter_map, inside, same]

end

end Stencil.Files.Glob
