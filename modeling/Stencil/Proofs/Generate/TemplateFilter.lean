import Stencil.Proofs.Files.Glob.PackageRegex
import Stencil.Proofs.Generate.Inputs
import Stencil.Proofs.Generate.OutputNames

/-! The files that the filter of a search for templates lets through: those that stand below no
hidden directory, no directory of packages and not below the output directory.
-/

namespace Stencil.Files.Glob

variable {word : List Char} {names folder : Location}

-----------------------------------------------------------------------------------------
-- The way to templates
-----------------------------------------------------------------------------------------

/-- A character of a word or a dot is passed over where a pattern is cut at its slashes. -/
theorem readNext_plain {c : Char} {place : Segments.Place}
    (isPlain : isOwn c = true ∨ c = '.')
    (calm : place.isInEscapedBrace = false)
    : place.readNext c = place.skip 1 := by
  have differs (mark : Char) (isMark : isOwn mark = false)
      (notDot : mark ≠ '.')
      : c ≠ mark := by
    rintro rfl
    rcases isPlain with isWord | isDot
    · rw [isMark] at isWord
      cases isWord
    · exact notDot isDot
  have noMark : c ∉ "+@*?!".toList := by
    have marks : ("+@*?!".toList.all fun mark =>
        !isOwn mark && mark != '.') = true := by decide
    intro member
    have isMark := List.all_eq_true.1 marks c member
    rw [Bool.and_eq_true, Bool.not_eq_true', bne_iff_ne] at isMark
    exact differs c isMark.1 isMark.2 rfl
  have noMark' : "+@*?!".toList.contains c = false := by simpa using noMark
  simp only [Segments.Place.readNext, calm, noMark', Bool.false_or, Bool.false_and, beq_iff_eq,
    differs '\\' (by decide) (by decide), differs '\x7b' (by decide) (by decide),
    differs '/' (by decide) (by decide), differs '*' (by decide) (by decide),
    differs '?' (by decide) (by decide), differs '[' (by decide) (by decide),
    differs '!' (by decide) (by decide), differs '(' (by decide) (by decide), if_false, or_self,
    false_and, Bool.or_eq_true, Bool.and_eq_true, Bool.false_eq_true]

/-- A word is passed over as a whole, by induction on it. -/
theorem readWithin_word (isWord : ∀ c ∈ word, isOwn c = true)
    (fuel : Nat) (place : Segments.Place) (tail : List Char) (calm : place.isInEscapedBrace = false)
    (rest : place.rest = word ++ tail)
    : ∃ index last?,
        Segments.Place.readWithin (fuel + word.length) place
          = Segments.Place.readWithin fuel { place with index, last?, rest := tail } := by
  induction word generalizing place with
  | nil => exact ⟨place.index, place.last?, by rw [List.nil_append] at rest; rw [← rest]; rfl⟩
  | cons c word ih =>
      rw [List.forall_mem_cons] at isWord
      have left : (place.skip 1).rest = word ++ tail := by
        rw [Segments.Place.skip, rest]
        rfl
      have calm' : (place.skip 1).isInEscapedBrace = false := calm
      obtain ⟨index, last?, eq⟩ := ih isWord.2 (place.skip 1) calm' left
      refine ⟨index, last?, ?_⟩
      rw [List.length_cons, ← Nat.add_assoc, Segments.Place.readWithin, rest]
      simp only [List.cons_append]
      rw [readNext_plain (.inl isWord.1) calm, eq]
      rfl

/-- The pattern of templates is cut into its two stars and the name. -/
theorem exists_segmentsOf_templatePattern (isWord : IsWord word)
    : ∃ name, segmentsOf (templatePattern word) = [['*', '*'], name] := by
  let start : Segments.Place := ⟨0, templatePattern word, none, 0, [], false, false⟩
  let middle : Segments.Place := ⟨5, word ++ ['.', '*'], some '.', 0, [2], true, false⟩
  have length : (templatePattern word).length = 2 + word.length + 5 := by
    simp [templatePattern]
    omega
  have stars : Segments.Place.readWithin (2 + word.length + 5) start
      = Segments.Place.readWithin (2 + word.length) middle := rfl
  obtain ⟨index, last?, named⟩ := readWithin_word isWord.isWord 2 middle ['.', '*'] rfl rfl
  have ending : ∃ stop : Segments.Place,
      Segments.Place.readWithin 2 { middle with index, last?, rest := ['.', '*'] } = stop
      ∧ stop.start = 0
      ∧ stop.slashes = [2] := ⟨_, rfl, rfl, rfl⟩
  obtain ⟨stop, reads, atStart, slashes⟩ := ending
  have long : ¬ (templatePattern word).length ≤ 2 + 1 := by omega
  refine ⟨(templatePattern word).drop 3, ?_⟩
  have parts : Segments.parts (templatePattern word)
      = [['*', '*'], (templatePattern word).drop 3] := by
    have read : Segments.Place.readWithin (templatePattern word).length
        ⟨0, templatePattern word, none, 0, [], false, false⟩ = stop := by
      rw [length, ← reads, ← named, ← stars]
    simp only [Segments.parts, read, atStart, slashes]
    have last : Segments.between (templatePattern word) 0 2 []
        = [(templatePattern word).drop 3] := by
      rw [Segments.between, if_neg (by simpa using long)]
    simp only [List.reverse_singleton, Segments.between] at last ⊢
    rw [last]
    rfl
  rw [segmentsOf, parts]
  rfl

/-- Templates may stand below any directory. -/
theorem mayLead_templatePattern (isWord : IsWord word) {above : List (List Char)}
    (below : above ≠ [])
    : (WayFilter.ofPattern (templatePattern word)).mayLead above = true := by
  obtain ⟨name, segments⟩ := exists_segmentsOf_templatePattern isWord
  have filter : WayFilter.ofPattern (templatePattern word) = ⟨[], false⟩ := by
    simp only [WayFilter.ofPattern, segments]
    rfl
  have shorter : ([] : List NameFilter).length < above.length := List.length_pos_iff.2 below
  rw [filter, WayFilter.mayLead, if_pos shorter]
  rfl

/-- Directories between a base and a file below it are above the file, by induction on its names. -/
theorem exists_of_mem_foldersBetween {base path : List Char} {texts : List (List Char)}
    (member : path ∈ foldersBetween base texts)
    : ∃ above below,
        texts = above ++ below
        ∧ above ≠ []
        ∧ below ≠ []
        ∧ path = base ++ Text.joinWith ['/'] above := by
  induction texts generalizing base with
  | nil => cases member
  | cons name texts ih =>
      cases texts with
      | nil => cases member
      | cons next texts =>
          have member : path
              ∈ (base ++ name) :: foldersBetween (base ++ name ++ ['/']) (next :: texts) :=
            member
          rcases List.mem_cons.1 member with rfl | later
          · exact ⟨[name], next :: texts, rfl, List.cons_ne_nil _ _, List.cons_ne_nil _ _, rfl⟩
          · obtain ⟨above, below, eq, nonempty, isBelow, rfl⟩ := ih later
            refine ⟨name :: above, below, by rw [eq]; rfl, List.cons_ne_nil _ _, isBelow, ?_⟩
            obtain ⟨first, more, rfl⟩ := List.exists_cons_of_ne_nil nonempty
            simp [Text.joinWith]

-----------------------------------------------------------------------------------------
-- The filter
-----------------------------------------------------------------------------------------

/-- Names on the way to a template that are searched: none is hidden or that of a directory of
packages, those before the last one are on one line, and the last one starts on it.
-/
structure IsSearched (names : Location) : Prop where
  shown : ∀ name ∈ names, ¬ IsHidden name
  outside : "node_modules" ∉ names
  line : ∀ name ∈ names.dropLast, ∀ c ∈ name.toList, UnitSet.lineEnds.has c.toNat = false
  start : ∀ name ∈ names.getLast?, ∀ c ∈ name.toList.head?, UnitSet.lineEnds.has c.toNat = false

/-- What stands before the last of some joined names. -/
def leadOf (above : Location) : List Char := above.flatMap fun name => name.toList ++ ['/']

theorem toList_join_leadOf (above : Location) (name : String)
    : (PathText.join (above ++ [name])).toList = leadOf above ++ name.toList := by
  induction above with
  | nil => simp [PathText.join, leadOf]
  | cons first above ih =>
      have more : above ++ [name] ≠ [] := List.concat_ne_nil name above
      have split := PathText.toList_join_append (List.cons_ne_nil first []) more
      have only : (PathText.join [first]).toList = first.toList := by simp [PathText.join]
      rw [List.singleton_append, only, ih] at split
      rw [List.cons_append, split]
      simp [leadOf]

theorem leadOf_starts (above : Location)
    : leadOf above = [] ∨ (leadOf above).getLast? = some '/' := by
  rcases List.eq_nil_or_concat above with rfl | ⟨more, last, rfl⟩
  · exact .inl rfl
  · exact .inr (by simp [leadOf])

theorem line_unitsOf_iff {c : Char}
    : (∀ unit ∈ Text.unitsOf c, UnitSet.lineEnds.has unit = false)
      ↔ UnitSet.lineEnds.has c.toNat = false := by
  refine ⟨fun line => ?_, fun line unit => not_isLineEnd_of_mem_unitsOf line⟩
  rw [Text.unitsOf] at line
  split at line
  · exact line c.toNat (List.mem_singleton_self _)
  · simp only [UnitSet.has, UnitSet.lineEnds, List.any_cons, List.any_nil, Bool.or_false,
      Bool.or_eq_false_iff, Bool.and_eq_false_iff, decide_eq_false_iff_not]
    omega

/-- A text starts on a line if its first character does not end it. -/
theorem line_head_units_iff {c : Char} {more : List Char}
    : (∀ unit ∈ ((c :: more).flatMap Text.unitsOf).head?, UnitSet.lineEnds.has unit = false)
      ↔ UnitSet.lineEnds.has c.toNat = false := by
  rw [List.flatMap_cons, Text.unitsOf]
  split
  · simp
  · simp only [List.cons_append, List.head?_cons, Option.mem_some_iff, forall_eq', UnitSet.has,
      UnitSet.lineEnds, List.any_cons, List.any_nil, Bool.or_false, Bool.or_eq_false_iff,
      Bool.and_eq_false_iff, decide_eq_false_iff_not]
    omega

/-- A directory part is on one line if its names are. -/
theorem line_leadOf_iff {above : Location}
    : (∀ unit ∈ (leadOf above).flatMap Text.unitsOf, UnitSet.lineEnds.has unit = false)
      ↔ ∀ name ∈ above, ∀ c ∈ name.toList, UnitSet.lineEnds.has c.toNat = false := by
  have slash : UnitSet.lineEnds.has '/'.toNat = false := by decide
  simp only [List.forall_mem_flatMap, line_unitsOf_iff, leadOf, List.forall_mem_append,
    List.forall_mem_singleton, slash, and_true]

/-- The filter of a search for templates that leaves the directories of packages and another one out.
-/
def templateFilter (word : List Char) (folder : Location) : Filter :=
  .ofGroup ⟨['.'], [templatePattern word]⟩
    [packagePattern, folderPattern (PathText.join folder).toList]

section

variable (isWord : IsWord word) (isLiteral : IsLiteral (PathText.join folder).toList)

include isWord isLiteral

theorem templateFilter_eq
    : templateFilter word folder
      = { positives := [templateRegex word]
          relative :=
            [regexOf true packagePattern, regexOf true (folderPattern (PathText.join folder).toList)]
          absolute := []
          covers :=
            [regexOf false packagePattern,
              regexOf false (folderPattern (PathText.join folder).toList)]
          ways := [.ofPattern (templatePattern word)] } := by
  let text := (PathText.join folder).toList
  have isRelative : ((folderPattern text).head? == some '/') = false := by
    obtain ⟨c, more, eq⟩ := List.exists_cons_of_ne_nil isLiteral.nonempty
    have starts := isLiteral.starts
    rw [eq] at starts
    simpa [text, folderPattern, eq] using starts
  have covers : coversFolders (folderPattern text) = true := by
    rw [coversFolders, Bool.or_eq_true, List.isSuffixOf_iff_suffix]
    exact .inl (List.suffix_append _ _)
  have isRelative' : (packagePattern.head? == some '/') = false := rfl
  have covers' : coversFolders packagePattern = true := by
    rw [coversFolders, Bool.or_eq_true, List.isSuffixOf_iff_suffix]
    exact .inl ⟨"**/node_modules".toList, rfl⟩
  simp only [templateFilter, Filter.ofGroup, List.partition_eq_filter_filter, List.filter_cons,
    List.filter_nil, Function.comp_apply, isRelative', isRelative, covers', covers,
    List.map_cons, List.map_nil, regexOf_templatePattern isWord, Bool.not_false, Bool.false_eq_true,
    if_true, if_false, text]

variable (named : names.Named) (nonempty : names ≠ [])

include named nonempty

theorem accepts_templateFilter_iff {absolute : List Char}
    : (templateFilter word folder).accepts (PathText.join names).toList absolute = true
      ↔ (templateRegex word).isFoundIn (PathText.join names).toList = true
        ∧ (regexOf true packagePattern).isFoundIn (PathText.join names).toList = false
        ∧ (regexOf true (folderPattern (PathText.join folder).toList)).isFoundIn
            (PathText.join names).toList = false := by
  rw [Filter.accepts, templateFilter_eq isWord isLiteral, Generate.withoutDot_join named nonempty]
  simp

theorem enters_templateFilter_iff
    : (templateFilter word folder).enters (PathText.join names).toList = true
      ↔ (regexOf false packagePattern).isFoundIn (PathText.join names).toList = false
        ∧ (regexOf false (folderPattern (PathText.join folder).toList)).isFoundIn
            (PathText.join names).toList = false := by
  have leads : (WayFilter.ofPattern (templatePattern word)).mayLead
      (Text.splitOn '/' (PathText.join names).toList) = true :=
    mayLead_templatePattern isWord (Text.splitOn_ne_nil _ _)
  rw [Filter.enters, templateFilter_eq isWord isLiteral, Generate.withoutDot_join named nonempty]
  simp [leads]

end

-----------------------------------------------------------------------------------------
-- What passes
-----------------------------------------------------------------------------------------

/-- A file passes a filter if all directories on the way are looked at and its path is asked for. -/
def Filter.Passes (filter : Filter) (names : Location) (absolute : List Char) : Prop :=
  (∀ path ∈ foldersBetween [] (names.map String.toList), filter.enters path = true)
  ∧ filter.accepts (PathText.join names).toList absolute = true

/-- A file passes if all its ancestors are looked at and its path is asked for. -/
theorem Filter.passes_iff {filter : Filter} {absolute : List Char}
    : filter.Passes names absolute
      ↔ (∀ way below, way ++ below = names → way ≠ [] → below ≠ [] →
          filter.enters (PathText.join way).toList = true)
        ∧ filter.accepts (PathText.join names).toList absolute = true := by
  refine and_congr_left fun _ => ⟨fun entered way below eq isWay isBelow => ?_,
    fun entered path member => ?_⟩
  · refine entered _ ?_
    rw [← eq, List.map_append, PathText.toList_join]
    exact mem_foldersBetween (by simpa using isWay) (by simpa using isBelow) []
  · obtain ⟨texts, rest, eq, isWay, isBelow, rfl⟩ := exists_of_mem_foldersBetween member
    obtain ⟨way, below, rfl, rfl, rfl⟩ := List.map_eq_append_iff.1 eq
    rw [List.nil_append, ← PathText.toList_join]
    exact entered way below rfl (by simpa using isWay) (by simpa using isBelow)

/-- A directory of packages is found behind names that are shown and on one line. -/
theorem isFoundIn_packagePattern_join {front : Location} (named : front.Named)
    (shown : ∀ name ∈ front, ¬ IsHidden name)
    (line : ∀ name ∈ front, ∀ c ∈ name.toList, UnitSet.lineEnds.has c.toNat = false)
    : (regexOf false packagePattern).isFoundIn (PathText.join (front ++ ["node_modules"])).toList
      = true := by
  have isName : IsName "node_modules" := by decide
  have named' : Location.Named (front ++ ["node_modules"]) :=
    List.forall_mem_append.2 ⟨named, List.forall_mem_singleton.2 isName⟩
  have shown' : ∀ name ∈ front ++ ["node_modules"], ¬ IsHidden name :=
    List.forall_mem_append.2 ⟨shown, List.forall_mem_singleton.2 (by decide)⟩
  rw [toList_join_leadOf]
  refine isFoundIn_packagePattern (leadOf_starts front) (fun isHidden => ?_) (line_leadOf_iff.2 line)
  have whole : HasHidden ((PathText.join (front ++ ["node_modules"])).toList.flatMap
      Text.unitsOf) := by
    rw [toList_join_leadOf, List.flatMap_append]
    exact isHidden.append _
  obtain ⟨name, member, hidden⟩ := (hasHidden_join_iff named').1 whole
  exact shown' name member hidden

section

variable (isWord : IsWord word) (named' : folder.Named) (nonempty : folder ≠ [])
  (plain : PlainNames folder) {above : Location} {last : String}
  (named : Location.Named (above ++ [last]))

section

include isWord named

/-- Names on the way to a file with the name of a template are shown, and on one line up to the
start of the last one.
-/
theorem shown_of_isFoundIn_join
    (found : (templateRegex word).isFoundIn (PathText.join (above ++ [last])).toList = true)
    : (∀ name ∈ above ++ [last], ¬ IsHidden name)
      ∧ (∀ name ∈ above, ∀ c ∈ name.toList, UnitSet.lineEnds.has c.toNat = false)
      ∧ ∀ c ∈ last.toList.head?, UnitSet.lineEnds.has c.toNat = false := by
  have isName := named last (by simp)
  rw [toList_join_leadOf] at found
  obtain ⟨shown, line, unit, isNext, isLine⟩ := shown_of_isFoundIn isWord (leadOf_starts above)
    (fun empty => isName.nonempty (String.toList_inj.1 empty)) isName.noSlash found
  refine ⟨fun name member isHidden => ?_, line_leadOf_iff.1 line, fun c isFirst => ?_⟩
  · rw [← toList_join_leadOf, hasHidden_join_iff named] at shown
    exact shown ⟨name, member, isHidden⟩
  · obtain ⟨more, eq⟩ := List.head?_eq_some_iff.1 isFirst
    rw [eq] at isNext
    exact line_head_units_iff.1 fun other isOther => Option.mem_unique isNext isOther ▸ isLine

/-- A file with the name of a template is found behind names that are shown and on one line, if its
own name starts on it.
-/
theorem isFoundIn_templateRegex_join {front ending : List Char} (isFront : front ≠ [])
    (parts : last.toList = front ++ '.' :: (word ++ '.' :: ending))
    (shown : ∀ name ∈ above ++ [last], ¬ IsHidden name)
    (line : ∀ name ∈ above, ∀ c ∈ name.toList, UnitSet.lineEnds.has c.toNat = false)
    (start : ∀ c ∈ last.toList.head?, UnitSet.lineEnds.has c.toNat = false)
    : (templateRegex word).isFoundIn (PathText.join (above ++ [last])).toList = true := by
  have noHidden : ¬ HasHidden ((PathText.join (above ++ [last])).toList.flatMap Text.unitsOf) := by
    rw [hasHidden_join_iff named]
    rintro ⟨name, member, isHidden⟩
    exact shown name member isHidden
  have noSlash := (named last (by simp)).noSlash
  rw [toList_join_leadOf, parts] at noHidden ⊢
  rw [parts] at noSlash start
  simp only [List.mem_append, List.mem_cons, not_or] at noSlash
  refine isFoundIn_templateRegex isWord (leadOf_starts above) isFront (by simp [noSlash]) ?_
    (line_leadOf_iff.2 line) ?_
  · intro isHidden
    apply noHidden
    rw [← List.append_assoc, List.flatMap_append]
    exact isHidden.append _
  · obtain ⟨c, more, rfl⟩ := List.exists_cons_of_ne_nil isFront
    exact line_head_units_iff.2 (start c rfl)

end

include isWord named' nonempty plain named

/-- What passes is not the other directory and does not stand below it: the filter does not look at
that directory, and does not ask for a file of its name.
-/
theorem not_prefix_of_passes {absolute : List Char}
    (passes : (templateFilter word folder).Passes (above ++ [last]) absolute)
    : ¬ folder <+: above ++ [last] := by
  obtain ⟨entered, accepted⟩ := Filter.passes_iff.1 passes
  have isLiteral := isLiteral_join named' nonempty plain
  rintro ⟨below, eq⟩
  by_cases atEnd : below = []
  · have whole : above ++ [last] ≠ [] := List.concat_ne_nil _ _
    obtain ⟨_, _, apart⟩ := (accepts_templateFilter_iff isWord isLiteral named whole).1 accepted
    rw [atEnd, List.append_nil] at eq
    rw [← eq, isFoundIn_folderPattern isLiteral] at apart
    cases apart
  · obtain ⟨_, apart⟩ := (enters_templateFilter_iff isWord isLiteral named' nonempty).1
      (entered folder below eq nonempty atEnd)
    rw [isFoundIn_folderPattern isLiteral] at apart
    cases apart

/-- What passes is searched and does not stand below the other directory: the filter looks at no
directory of packages either.
-/
theorem isSearched_of_passes {absolute : List Char} (dotted : '.' ∈ last.toList)
    (passes : (templateFilter word folder).Passes (above ++ [last]) absolute)
    : IsSearched (above ++ [last]) ∧ ¬ folder <+: above ++ [last] := by
  refine ⟨?_, not_prefix_of_passes isWord named' nonempty plain named passes⟩
  obtain ⟨entered, accepted⟩ := Filter.passes_iff.1 passes
  have isLiteral := isLiteral_join named' nonempty plain
  have whole : above ++ [last] ≠ [] := List.concat_ne_nil _ _
  obtain ⟨found, _⟩ := (accepts_templateFilter_iff isWord isLiteral named whole).1 accepted
  obtain ⟨shown, line, start⟩ := shown_of_isFoundIn_join isWord named found
  refine ⟨shown, fun member => ?_, ?_, ?_⟩
  · rcases List.mem_append.1 member with inAbove | isLast
    · obtain ⟨front, behind, rfl⟩ := List.append_of_mem inAbove
      have split : (front ++ ["node_modules"]) ++ (behind ++ [last])
          = front ++ "node_modules" :: behind ++ [last] := by
        simp
      have namedWay : Location.Named (front ++ ["node_modules"]) := (split ▸ named).left
      have isWay : front ++ ["node_modules"] ≠ [] := List.concat_ne_nil _ _
      obtain ⟨apart, _⟩ := (enters_templateFilter_iff isWord isLiteral namedWay isWay).1
        (entered _ _ split isWay (List.concat_ne_nil _ _))
      have inFront {name : String} (isIn : name ∈ front)
          : name ∈ front ++ "node_modules" :: behind :=
        List.mem_append_left _ isIn
      rw [isFoundIn_packagePattern_join namedWay.left
        (fun name isIn => shown name (List.mem_append_left _ (inFront isIn)))
        (fun name isIn => line name (inFront isIn))] at apart
      cases apart
    · rw [← List.mem_singleton.1 isLast] at dotted
      exact absurd dotted (by decide)
  · rwa [List.dropLast_concat]
  · intro name isLast
    rw [List.getLast?_concat] at isLast
    cases isLast
    exact start

/-- A template passes that is searched and does not stand below the other directory. -/
theorem passes_of_isSearched {absolute front ending : List Char} (isFront : front ≠ [])
    (parts : last.toList = front ++ '.' :: (word ++ '.' :: ending))
    (searched : IsSearched (above ++ [last])) (outside : ¬ folder <+: above ++ [last])
    : (templateFilter word folder).Passes (above ++ [last]) absolute := by
  have isLiteral := isLiteral_join named' nonempty plain
  have whole : above ++ [last] ≠ [] := List.concat_ne_nil _ _
  -- What is left out would be the way itself or a part of it.
  have notMatched {shown : Bool} {way below : Location} (eq : way ++ below = above ++ [last])
      (isWay : way ≠ [])
      : (regexOf shown packagePattern).isFoundIn (PathText.join way).toList = false
        ∧ (regexOf shown (folderPattern (PathText.join folder).toList)).isFoundIn
            (PathText.join way).toList = false := by
    have namedWay : Location.Named way := (eq ▸ named : Location.Named (way ++ below)).left
    rw [← Bool.not_eq_true, ← Bool.not_eq_true]
    refine ⟨fun found => searched.outside ?_, fun found => outside ?_⟩
    · have member := mem_of_isFoundIn_packagePattern namedWay isWay found
      exact eq ▸ List.mem_append_left _ member
    · have isAbove :=
        prefix_of_isFoundIn_folderPattern namedWay isWay named' nonempty isLiteral found
      exact isAbove.trans (eq ▸ List.prefix_append _ _)
  refine Filter.passes_iff.2 ⟨fun way below eq isWay _ => ?_, ?_⟩
  · have namedWay : Location.Named way := (eq ▸ named : Location.Named (way ++ below)).left
    exact (enters_templateFilter_iff isWord isLiteral namedWay isWay).2 (notMatched eq isWay)
  · refine (accepts_templateFilter_iff isWord isLiteral named whole).2
      ⟨?_, notMatched (List.append_nil _) whole⟩
    have line := searched.line
    have start := searched.start last
    rw [List.dropLast_concat] at line
    rw [List.getLast?_concat] at start
    exact isFoundIn_templateRegex_join isWord named isFront parts searched.shown line (start rfl)

end

end Stencil.Files.Glob
