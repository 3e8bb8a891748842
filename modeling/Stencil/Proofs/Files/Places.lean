import Stencil.Files.PathText
import Stencil.Files.Tree
import Stencil.Proofs.Path.Spelling

/-! The places that path texts lead to. The names of a place spelled as an absolute text lead there
again, and a path that never goes up adds its own names to those of the place it is seen from.
-/

namespace Stencil

namespace Text

/-- Splitting two texts with a separator between them splits each of them. -/
theorem splitOn_append_cons (separator : Char) (left right : List Char)
    : splitOn separator (left ++ separator :: right)
      = splitOn separator left ++ splitOn separator right := by
  induction left with
  | nil => simp [splitOn]
  | cons c left ih =>
      rw [List.cons_append, splitOn, splitOn]
      split
      · rw [ih, List.cons_append]
      · rw [ih]
        cases pieces : splitOn separator left with
        | nil => exact absurd pieces (splitOn_ne_nil _ _)
        | cons piece more => rfl

/-- The separator is in none of the pieces that a text is split into. -/
theorem not_mem_of_mem_splitOn {separator : Char} {text piece : List Char}
    (member : piece ∈ splitOn separator text)
    : separator ∉ piece := by
  induction text generalizing piece with
  | nil => simp_all [splitOn]
  | cons c text ih =>
      rw [splitOn] at member
      split at member
      · rcases List.mem_cons.1 member with rfl | later
        · exact List.not_mem_nil
        · exact ih later
      · rename_i other
        cases pieces : splitOn separator text with
        | nil => exact absurd pieces (splitOn_ne_nil _ _)
        | cons first more =>
            rw [pieces] at member ih
            rcases List.mem_cons.1 member with rfl | later
            · simpa [Ne.symm other] using ih (List.mem_cons_self ..)
            · exact ih (List.mem_cons_of_mem _ later)

/-- What stands behind the last mark of a list. -/
theorem takeWhile_reverse {α : Type} [DecidableEq α] {mark : α} {lead name : List α}
    (starts : lead = [] ∨ lead.getLast? = some mark) (absent : mark ∉ name)
    : (lead ++ name).reverse.takeWhile (· != mark) = name.reverse := by
  have passed : ∀ item ∈ name.reverse, (item != mark) = true := by
    intro item member
    rw [bne_iff_ne]
    rintro rfl
    exact absent (List.mem_reverse.1 member)
  rw [List.reverse_append, List.takeWhile_append_of_pos passed]
  rcases starts with rfl | ends
  · simp
  · obtain ⟨before, rfl⟩ := List.getLast?_eq_some_iff.1 ends
    simp

end Text

namespace Files

/-- A text that an entry of a directory can have as its name. -/
structure IsName (name : String) : Prop where
  nonempty : name ≠ ""
  notHere : name ≠ "."
  notAbove : name ≠ ".."
  noSlash : '/' ∉ name.toList

instance (name : String) : Decidable (IsName name) :=
  decidable_of_iff (name ≠ "" ∧ name ≠ "." ∧ name ≠ ".." ∧ '/' ∉ name.toList)
    ⟨fun ⟨nonempty, notHere, notAbove, noSlash⟩ => ⟨nonempty, notHere, notAbove, noSlash⟩,
      fun h => ⟨h.nonempty, h.notHere, h.notAbove, h.noSlash⟩⟩

/-- A name stays one with more characters behind it, none of them a slash. -/
theorem IsName.append {name rest : String} (h : IsName name) (noSlash : '/' ∉ rest.toList)
    : IsName (name ++ rest) := by
  have start {text : String} (eq : name ++ rest = text) : name.toList <+: text.toList :=
    ⟨rest.toList, by rw [← eq, String.toList_append]⟩
  have short {dots : List Char} (isPrefix : name.toList <+: dots) (few : dots <+: ['.', '.'])
      : False := by
    rcases List.prefix_cons_iff.1 (isPrefix.trans few) with eq | ⟨_, eq, isPrefix⟩
    · exact h.nonempty (String.toList_inj.1 eq)
    rcases List.prefix_cons_iff.1 isPrefix with rfl | ⟨more, rfl, isPrefix'⟩
    · exact h.notHere (String.toList_inj.1 eq)
    · rw [List.prefix_nil.1 isPrefix'] at eq
      exact h.notAbove (String.toList_inj.1 eq)
  refine ⟨fun eq => short (start eq) ?_, fun eq => short (start eq) ?_,
    fun eq => short (start eq) ?_, ?_⟩
  · exact List.nil_prefix
  · exact ⟨['.'], rfl⟩
  · exact List.prefix_rfl
  · simpa [String.toList_append] using ⟨h.noSlash, noSlash⟩

/-- A location whose names are names of entries. -/
def Location.Named (location : Location) : Prop := ∀ name ∈ location, IsName name

instance (location : Location) : Decidable location.Named :=
  inferInstanceAs (Decidable (∀ name ∈ location, IsName name))

theorem Location.Named.append {first second : Location} (h : first.Named) (h' : second.Named)
    : Location.Named (first ++ second) := by
  intro name member
  rcases List.mem_append.1 member with inFirst | inSecond
  · exact h name inFirst
  · exact h' name inSecond

theorem Location.Named.concat {name : String} (h : location.Named) (isName : IsName name)
    : Location.Named (location ++ [name]) :=
  h.append (List.forall_mem_singleton.2 isName)

theorem Location.Named.left {first second : Location}
    (h : Location.Named (first ++ second))
    : first.Named :=
  fun name member => h name (List.mem_append_left _ member)

theorem Location.Named.right {first second : Location}
    (h : Location.Named (first ++ second))
    : second.Named :=
  fun name member => h name (List.mem_append_right _ member)

theorem Location.Named.dropLast {location : Location} (h : location.Named)
    : Location.Named location.dropLast :=
  fun name member => h name (List.dropLast_subset _ member)

theorem Location.Named.notAbove {location : Location} (h : location.Named) : ".." ∉ location :=
  fun member => (h ".." member).notAbove rfl

/-- Names are what is left of them without empty segments and dots. -/
theorem Location.Named.filter_eq_self {location : Location} (h : location.Named)
    : location.filter (fun segment => segment ≠ "" && segment ≠ ".") = location := by
  rw [List.filter_eq_self]
  intro segment member
  simp [(h segment member).nonempty, (h segment member).notHere]

namespace PathText

/-- The names among the segments of a path: those that are neither empty nor a dot. -/
def place (path : String) : Location :=
  (segments path).filter fun segment => segment ≠ "" && segment ≠ "."

-----------------------------------------------------------------------------------------
-- Segments
-----------------------------------------------------------------------------------------

theorem toList_join (names : Location)
    : (join names).toList = Text.joinWith ['/'] (names.map String.toList) := by
  rw [Text.joinWith_eq_intercalate, join, String.toList_intercalate]
  rfl

theorem noSlash_of_mem_segments {path segment : String} (member : segment ∈ segments path)
    : '/' ∉ segment.toList := by
  obtain ⟨piece, inPieces, rfl⟩ := List.mem_map.1 member
  rw [String.toList_ofList]
  exact Text.not_mem_of_mem_splitOn inPieces

/-- The segments of two texts with a slash between them. -/
theorem segments_append (base path : String)
    : segments (base ++ "/" ++ path) = segments base ++ segments path := by
  have slash : "/".toList = ['/'] := rfl
  simp [segments, slash, Text.splitOn_append_cons]

theorem place_append (base path : String)
    : place (base ++ "/" ++ path) = place base ++ place path := by
  rw [place, segments_append, List.filter_append]
  rfl

/-- A path with more behind it starts at the top of the tree if the path does. -/
theorem isAbsolute_append {path : String} (nonempty : path ≠ "") (rest : String)
    : isAbsolute (path ++ rest) = isAbsolute path := by
  have nonempty : path.toList ≠ [] := fun empty => nonempty (String.toList_inj.1 empty)
  rw [isAbsolute, isAbsolute, String.toList_append, List.head?_append,
    List.head?_eq_some_head nonempty]
  rfl

/-- Names joined by slashes are the segments of the text. -/
theorem segments_join {names : Location} (named : names.Named) (nonempty : names ≠ [])
    : segments (join names) = names := by
  have absent : ∀ piece ∈ names.map String.toList, '/' ∉ piece := by
    intro piece member
    obtain ⟨name, inNames, rfl⟩ := List.mem_map.1 member
    exact (named name inNames).noSlash
  rw [segments, toList_join, Text.splitOn_joinWith (by simpa using nonempty) absent]
  simp

/-- Names joined by slashes are the place of the text. -/
theorem place_join {names : Location} (named : names.Named) : place (join names) = names := by
  cases names with
  | nil => rfl
  | cons name names =>
      rw [place, segments_join named (List.cons_ne_nil _ _), named.filter_eq_self]

theorem join_ne_empty {names : Location} (named : names.Named) (nonempty : names ≠ [])
    : join names ≠ "" := by
  intro empty
  have same := place_join named
  rw [empty] at same
  exact nonempty (same.symm.trans rfl)

-----------------------------------------------------------------------------------------
-- Going down segments
-----------------------------------------------------------------------------------------

/-- Going down segments none of which goes up adds the names among them, by induction on the
segments.
-/
theorem foldl_descend {segments : List String} (stays : ".." ∉ segments) (isAbsolute : Bool)
    (passed : List String)
    : segments.foldl (descend isAbsolute) passed
      = (segments.filter fun segment => segment ≠ "" && segment ≠ ".").reverse ++ passed := by
  induction segments generalizing passed with
  | nil => rfl
  | cons segment segments ih =>
      simp only [List.mem_cons, not_or] at stays
      rw [List.foldl_cons, ih stays.2]
      unfold descend
      by_cases isNothing : segment = "" ∨ segment = "."
      · rcases isNothing with rfl | rfl <;> simp
      · simp only [not_or] at isNothing
        simp [isNothing, Ne.symm stays.1]

/-- From the top of the tree only names are passed. -/
theorem named_descend {passed : List String} {segment : String}
    (named : Location.Named passed) (noSlash : '/' ∉ segment.toList)
    : Location.Named (descend true passed segment) := by
  unfold descend
  split
  · exact named
  · rename_i isNothing
    split
    · split
      · exact named
      · exact absurd rfl (named ".." (by simp)).notAbove
      · exact fun name member => named name (List.mem_cons_of_mem _ member)
    · rename_i notAbove
      simp only [Bool.or_eq_true, decide_eq_true_eq, not_or] at isNothing
      intro name member
      rcases List.mem_cons.1 member with rfl | later
      · exact ⟨isNothing.1, isNothing.2, notAbove, noSlash⟩
      · exact named name later

theorem named_normalSegments {segments : List String}
    (noSlash : ∀ segment ∈ segments, '/' ∉ segment.toList)
    : Location.Named (normalSegments true segments) := by
  suffices named : ∀ passed : List String,
      Location.Named passed → Location.Named (segments.foldl (descend true) passed) by
    intro name member
    exact named [] (fun _ none => absurd none List.not_mem_nil) name (List.mem_reverse.1 member)
  induction segments with
  | nil => exact fun _ named => named
  | cons segment segments ih =>
      intro passed named
      exact ih (fun other member => noSlash other (List.mem_cons_of_mem _ member)) _
        (named_descend named (noSlash segment (List.mem_cons_self ..)))

/-- What a path leads to, seen from a place with names, has names. -/
theorem named_locate {directory : Location} (named : directory.Named) (path : String)
    : Location.Named (locate directory path) := by
  rw [locate]
  split
  · exact named_normalSegments fun segment => noSlash_of_mem_segments
  · refine named_normalSegments fun segment member => ?_
    rcases List.mem_append.1 member with inDirectory | inPath
    · exact (named segment inDirectory).noSlash
    · exact noSlash_of_mem_segments inPath

theorem named_nil : Location.Named [] := fun _ none => absurd none List.not_mem_nil

/-- A path that is not absolute and never goes up leads to its own names below the place that it
is seen from.
-/
theorem locate_of_relative {directory : Location} (named : directory.Named) {path : String}
    (isRelative : isAbsolute path = false) (stays : ".." ∉ segments path)
    : locate directory path = directory ++ place path := by
  have stays' : ".." ∉ directory ++ segments path := by
    intro member
    rcases List.mem_append.1 member with inDirectory | inPath
    · exact named.notAbove inDirectory
    · exact stays inPath
  simp only [locate, isRelative, normalSegments, foldl_descend stays', List.filter_append,
    named.filter_eq_self]
  simp [place]

-----------------------------------------------------------------------------------------
-- Absolute texts
-----------------------------------------------------------------------------------------

/-- A text spells a location: as an absolute path, perhaps with a slash at its end. -/
inductive Spells (path : String) (location : Location) : Prop
  | plain (named : location.Named) (eq : path = absolute location)
  | slashed (named : location.Named) (nonempty : location ≠ [])
    (eq : path = absolute location ++ "/")

theorem Spells.named {path : String} {location : Location} (h : Spells path location)
    : location.Named := by
  cases h with
  | plain named _ => exact named
  | slashed named _ _ => exact named

theorem isAbsolute_absolute (location : Location) (rest : String)
    : isAbsolute (absolute location ++ rest) = true := by
  have slash : "/".toList = ['/'] := rfl
  simp [isAbsolute, absolute, slash]

theorem segments_slash (text : String) : segments ("/" ++ text) = "" :: segments text := by
  simp [segments, Text.splitOn]

/-- The segments of an absolute text are its names, with an empty one before them. -/
theorem segments_absolute {location : Location} (named : location.Named) (nonempty : location ≠ [])
    : segments (absolute location) = "" :: location := by
  rw [absolute, segments_slash, segments_join named nonempty]

theorem segments_slashed {location : Location} (named : location.Named) (nonempty : location ≠ [])
    : segments (absolute location ++ "/") = "" :: (location ++ [""]) := by
  have split : absolute location ++ "/" = "/" ++ (join location ++ "/" ++ "") := by
    simp [absolute, String.append_assoc]
  rw [split, segments_slash, segments_append, segments_join named nonempty]
  rfl

/-- The segments of a spelled location are its names, with an empty one before them and perhaps one
after them.
-/
theorem Spells.segments_eq {path : String} {location : Location} (h : Spells path location)
    : segments path = "" :: location ∨ segments path = "" :: (location ++ [""]) := by
  cases h with
  | plain named eq =>
      subst eq
      by_cases atTop : location = []
      · subst atTop
        exact .inr (by decide)
      · exact .inl (segments_absolute named atTop)
  | slashed named nonempty eq => exact .inr (eq ▸ segments_slashed named nonempty)

/-- The segments of a spelled location, but for empty ones, are its names. -/
theorem Spells.place_eq {path : String} {location : Location} (h : Spells path location)
    : place path = location ∧ ".." ∉ segments path := by
  have same := h.named.filter_eq_self
  have notAbove := h.named.notAbove
  rcases h.segments_eq with eq | eq
  · exact ⟨by simp only [place, eq]; simpa using same, by simp [eq, notAbove]⟩
  · exact ⟨by simp only [place, eq]; simpa using same, by simp [eq, notAbove]⟩

theorem Spells.isAbsolute {path : String} {location : Location} (h : Spells path location)
    : isAbsolute path = true := by
  cases h with
  | plain _ eq => simpa [eq] using isAbsolute_absolute location ""
  | slashed _ _ eq => simpa [eq] using isAbsolute_absolute location "/"

theorem Spells.ne_empty {path : String} {location : Location} (h : Spells path location)
    : path ≠ "" := by
  rintro rfl
  exact absurd h.isAbsolute (by decide)

theorem Spells.toList_eq {path : String} {location : Location} (h : Spells path location)
    : ∃ slashes,
        (slashes = [] ∨ location ≠ [] ∧ slashes = ['/'])
        ∧ path.toList = (absolute location).toList ++ slashes := by
  cases h with
  | plain _ eq => exact ⟨[], .inl rfl, by simp [eq]⟩
  | slashed _ nonempty eq => exact ⟨['/'], .inr ⟨nonempty, rfl⟩, by simp [eq]⟩

/-- The top of the tree is spelled by a single slash. -/
theorem Spells.eq_slash {path : String} (h : Spells path []) : path = "/" := by
  cases h with
  | plain _ eq => exact eq
  | slashed _ nonempty _ => exact absurd rfl nonempty

/-- A text leads to the location that it spells, from wherever it is seen. -/
theorem Spells.locate_eq {path : String} {location : Location} (h : Spells path location)
    (directory : Location)
    : locate directory path = location := by
  obtain ⟨eq, stays⟩ := h.place_eq
  rw [locate, h.isAbsolute, if_pos rfl, normalSegments, foldl_descend stays, List.append_nil,
    List.reverse_reverse]
  exact eq

theorem spells_absolute {location : Location} (named : location.Named)
    : Spells (absolute location) location :=
  .plain named rfl

/-- A path resolved from a location spells the location it leads to from there. -/
theorem resolve_absolute {location : Location} (named : location.Named) (path : String)
    : resolve (absolute location) path = absolute (locate location path) := by
  rw [resolve, (spells_absolute named).locate_eq]

theorem named_place {path : String} (stays : ".." ∉ segments path) : (place path).Named := by
  have named := named_normalSegments fun segment (member : segment ∈ segments path) =>
    noSlash_of_mem_segments member
  rwa [normalSegments, foldl_descend stays, List.append_nil, List.reverse_reverse] at named

/-- An absolute path that never goes up keeps its names and a slash at its end. -/
theorem normalize_of_absolute {path : String} (isAbsolute : isAbsolute path = true)
    (stays : ".." ∉ segments path)
    : normalize path
      = absolute (place path)
        ++ if place path ≠ [] ∧ path.toList.getLast? = some '/' then "/" else "" := by
  have body : normalSegments true (segments path) = place path := by
    rw [normalSegments, foldl_descend stays, List.append_nil, List.reverse_reverse]
    rfl
  simp only [normalize, isAbsolute, body, if_true]
  by_cases atTop : place path = []
  · have nothing : join [] = "" := rfl
    simp [atTop, absolute, nothing]
  · rw [if_neg (join_ne_empty (named_place stays) atTop)]
    simp [atTop, absolute]

/-- An absolute path that never goes up spells its own names, also without needless segments. -/
theorem spells_normalize {path : String} (isAbsolute : isAbsolute path = true)
    (stays : ".." ∉ segments path)
    : Spells (normalize path) (place path) := by
  rw [normalize_of_absolute isAbsolute stays]
  split
  · rename_i slashed
    exact .slashed (named_place stays) slashed.1 rfl
  · exact .plain (named_place stays) (String.append_empty)

/-- A path below a location that is not the location itself. -/
theorem append_eq_normalize {location : Location} (named : location.Named) {path : String}
    (nonempty : path ≠ "") (stays : ".." ∉ segments path)
    : let whole := absolute location ++ "/" ++ path
      append (absolute location) path = normalize whole
      ∧ isAbsolute whole = true
      ∧ ".." ∉ segments whole
      ∧ place whole = location ++ place path := by
  have base := spells_absolute named
  obtain ⟨same, stays'⟩ := base.place_eq
  refine ⟨by rw [append, if_neg base.ne_empty, if_neg nonempty], ?_, ?_, ?_⟩
  · rw [String.append_assoc]
    exact isAbsolute_absolute location _
  · rw [segments_append]
    exact fun member => (List.mem_append.1 member).elim stays' stays
  · rw [place_append, same]

/-- A path that never goes up, appended to a location, spells its own names below that. -/
theorem spells_append {location : Location} (named : location.Named) {path : String}
    (stays : ".." ∉ segments path)
    : Spells (append (absolute location) path) (location ++ place path) := by
  have base := spells_absolute named
  by_cases empty : path = ""
  · subst empty
    have nothing : place "" = [] := by decide
    rw [append, if_neg base.ne_empty, if_pos rfl, nothing, List.append_nil]
    simpa [base.place_eq.1] using spells_normalize base.isAbsolute base.place_eq.2
  · obtain ⟨eq, isAbsolute, stays', place_eq⟩ := append_eq_normalize named empty stays
    rw [eq, ← place_eq]
    exact spells_normalize isAbsolute stays'

theorem segments_name {name : String} (isName : IsName name) : segments name = [name] := by
  have joined : join [name] = name := by simp [join]
  conv => lhs; rw [← joined]
  exact segments_join (by simpa [Location.Named] using isName) (List.cons_ne_nil _ _)

/-- A name appended to a location. -/
theorem append_name {location : Location} (named : location.Named) {name : String}
    (isName : IsName name)
    : append (absolute location) name = absolute (location ++ [name]) := by
  have only := segments_name isName
  have own : place name = [name] := by
    simp [place, only, isName.nonempty, isName.notHere]
  obtain ⟨eq, isAbsolute, stays, place_eq⟩ := append_eq_normalize named isName.nonempty
    (by simpa [only] using Ne.symm isName.notAbove)
  have atEnd : (absolute location ++ "/" ++ name).toList.getLast? ≠ some '/' := by
    have nonempty : name.toList ≠ [] := fun empty => isName.nonempty (String.toList_inj.1 empty)
    intro slash
    rw [String.toList_append, List.getLast?_append, List.getLast?_eq_some_getLast nonempty] at slash
    exact isName.noSlash (Option.some.inj slash ▸ List.getLast_mem nonempty)
  rw [eq, normalize_of_absolute isAbsolute stays, if_neg fun both => atEnd both.2, place_eq, own,
    String.append_empty]

-----------------------------------------------------------------------------------------
-- The directory above
-----------------------------------------------------------------------------------------

/-- Joined names of a directory and of a place below it have a slash between them. -/
theorem toList_join_append {location below : Location} (nonempty : location ≠ [])
    (isBelow : below ≠ [])
    : (join (location ++ below)).toList = (join location).toList ++ '/' :: (join below).toList := by
  simp only [toList_join]
  induction location with
  | nil => exact absurd rfl nonempty
  | cons first more ih =>
      cases more with
      | nil =>
          obtain ⟨name, below, rfl⟩ := List.exists_cons_of_ne_nil isBelow
          simp [Text.joinWith]
      | cons next more => simpa [Text.joinWith] using ih (List.cons_ne_nil _ _)

theorem toList_join_concat {location : Location} (nonempty : location ≠ []) (name : String)
    : (join (location ++ [name])).toList = (join location).toList ++ '/' :: name.toList := by
  rw [toList_join_append nonempty (List.cons_ne_nil _ _)]
  rfl

/-- What stands before the last of joined names does not depend on that name, and ends with a
slash if there is anything.
-/
theorem exists_lead_of_join (location : Location)
    : ∃ lead : List Char,
        (lead = [] ∨ lead.getLast? = some '/')
        ∧ ∀ name, (join (location ++ [name])).toList = lead ++ name.toList := by
  by_cases atTop : location = []
  · subst atTop
    refine ⟨[], .inl rfl, fun name => ?_⟩
    simp [toList_join, Text.joinWith]
  · refine ⟨(join location).toList ++ ['/'], .inr (by simp), fun name => ?_⟩
    rw [toList_join_concat atTop, List.append_assoc, List.singleton_append]

/-- The absolute text of a location is that of the directory above, with the last name. -/
theorem exists_lead (location : Location) (name : String)
    : ∃ lead,
        (absolute (location ++ [name])).toList = lead ++ '/' :: name.toList
        ∧ (location = [] ∧ lead = [] ∨ location ≠ [] ∧ lead = (absolute location).toList) := by
  have slash : "/".toList = ['/'] := rfl
  by_cases atTop : location = []
  · subst atTop
    exact ⟨[], by simp [absolute, toList_join, Text.joinWith, slash], .inl ⟨rfl, rfl⟩⟩
  · refine ⟨_, ?_, .inr ⟨atTop, rfl⟩⟩
    simp only [absolute, String.toList_append, slash, toList_join_concat atTop, List.append_assoc]

/-- The slash that may follow a name at the end of a text is dropped, and nothing else. -/
theorem withoutEndSlashes_append (lead : List Char) {name slashes : List Char}
    (nonempty : name ≠ []) (noSlash : '/' ∉ name) (atEnd : slashes = [] ∨ slashes = ['/'])
    : withoutEndSlashes (lead ++ name ++ slashes) = lead ++ name := by
  rcases List.eq_nil_or_concat name with rfl | ⟨start, last, rfl⟩
  · exact absurd rfl nonempty
  · have other : last ≠ '/' := by
      rintro rfl
      exact noSlash (by simp)
    rcases atEnd with rfl | rfl <;> simp [withoutEndSlashes, other]

theorem afterLastSlash_append {lead name : List Char}
    (starts : lead = [] ∨ lead.getLast? = some '/') (noSlash : '/' ∉ name)
    : afterLastSlash (lead ++ name) = name := by
  rw [afterLastSlash, Text.takeWhile_reverse starts noSlash, List.reverse_reverse]

/-- What stands behind the last slash of a text is its last name. -/
theorem baseName_append {lead name : List Char} (starts : lead = [] ∨ lead.getLast? = some '/')
    (nonempty : name ≠ []) (noSlash : '/' ∉ name)
    : baseName (lead ++ name) = name := by
  have solid := withoutEndSlashes_append lead nonempty noSlash (.inl rfl)
  rw [List.append_nil] at solid
  rw [baseName, solid, afterLastSlash_append starts noSlash]

/-- The directory above a text that ends with a name behind a slash, and perhaps with another
slash.
-/
theorem parent_of_lead {path : String} (lead : List Char) {name slashes : List Char}
    (nonempty : name ≠ []) (noSlash : '/' ∉ name) (atEnd : slashes = [] ∨ slashes = ['/'])
    (text : path.toList = lead ++ '/' :: name ++ slashes)
    : parent path
      = if lead = [] then (if isAbsolute path then "/" else ".") else String.ofList lead := by
  have split : lead ++ '/' :: name = (lead ++ ['/']) ++ name := by simp
  have trimmed := withoutEndSlashes_append (lead ++ ['/']) nonempty noSlash atEnd
  have last : afterLastSlash (lead ++ ['/'] ++ name) = name :=
    afterLastSlash_append (.inr (by simp)) noSlash
  have cut : (lead ++ ['/'] ++ name).take ((lead ++ ['/'] ++ name).length - name.length)
      = lead ++ ['/'] := by
    rw [List.length_append, Nat.add_sub_cancel, List.take_left]
  simp only [parent, text, split, trimmed, last, cut, List.dropLast_concat, List.isEmpty_iff]

/-- A path that does not end with a slash is left as it is. -/
theorem trimmed_eq_self {path : String} (nonempty : path ≠ "")
    (noSlash : path.toList.getLast? ≠ some '/')
    : trimmed path = path := by
  rcases List.eq_nil_or_concat path.toList with empty | ⟨start, last, eq⟩
  · exact absurd (String.toList_inj.1 empty) nonempty
  · have other : last ≠ '/' := by
      rintro rfl
      exact noSlash (by simp [eq])
    have whole : withoutEndSlashes path.toList = path.toList := by
      simp [withoutEndSlashes, eq, other]
    rw [trimmed, whole, String.ofList_toList, ite_self]

/-- Without the slash that may be at its end a spelled path is an absolute text. -/
theorem Spells.trimmed_eq {path : String} {location : Location} (h : Spells path location)
    : trimmed path = absolute location := by
  obtain ⟨slashes, atEnd, text⟩ := h.toList_eq
  rcases List.eq_nil_or_concat location with rfl | ⟨above, name, rfl⟩
  · obtain rfl := h.eq_slash
    decide
  · rw [List.concat_eq_append] at h text ⊢
    have isName := h.named name (by simp)
    have nonempty : name.toList ≠ [] := fun empty => isName.nonempty (String.toList_inj.1 empty)
    obtain ⟨lead, eq, _⟩ := exists_lead above name
    have split : lead ++ '/' :: name.toList = lead ++ ['/'] ++ name.toList := by simp
    rw [eq, split] at text
    have cut := withoutEndSlashes_append (lead ++ ['/']) nonempty isName.noSlash
      (atEnd.imp_right And.right)
    rw [trimmed, text, cut, if_neg (by simp), ← split, ← eq, String.ofList_toList]

/-- A text that continues the last name of a location. -/
theorem absolute_append_name (location : Location) (name rest : String)
    : absolute (location ++ [name]) ++ rest = absolute (location ++ [name ++ rest]) := by
  obtain ⟨lead, eq, start⟩ := exists_lead location name
  obtain ⟨lead', eq', start'⟩ := exists_lead location (name ++ rest)
  have same : lead = lead' := by
    rcases start with ⟨atTop, rfl⟩ | ⟨below, rfl⟩ <;> rcases start' with ⟨atTop', rfl⟩ | ⟨_, rfl⟩
    · rfl
    · contradiction
    · contradiction
    · rfl
  rw [← String.toList_inj, String.toList_append, eq, eq', same]
  simp

/-- The directory above a spelled location is the location without its last name. -/
theorem Spells.parent_eq {path : String} {location : Location} (h : Spells path location)
    : parent path = absolute location.dropLast := by
  obtain ⟨slashes, atEnd, text⟩ := h.toList_eq
  rcases List.eq_nil_or_concat location with rfl | ⟨above, name, rfl⟩
  · obtain rfl := h.eq_slash
    decide
  · rw [List.concat_eq_append] at h text ⊢
    have isName := h.named name (by simp)
    have nonempty : name.toList ≠ [] := fun empty => isName.nonempty (String.toList_inj.1 empty)
    obtain ⟨lead, eq, lead_eq⟩ := exists_lead above name
    rw [eq] at text
    rw [parent_of_lead lead nonempty isName.noSlash (atEnd.imp_right And.right) text,
      h.isAbsolute, if_pos rfl, List.dropLast_concat]
    rcases lead_eq with ⟨rfl, rfl⟩ | ⟨below, rfl⟩
    · rfl
    · rw [if_neg, String.ofList_toList]
      simp [absolute]

end PathText

end Files

end Stencil
