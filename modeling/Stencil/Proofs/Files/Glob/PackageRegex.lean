import Stencil.Proofs.Files.Glob.ShownNames

/-! What the ignored patterns match and what they do not. The pattern of the contents of packages
matches the paths through a name that is `node_modules`, and the pattern of all that stands below a
directory matches only the directory and paths below it.
-/

namespace Stencil.Files.Glob

open Regex (Carries Reaches)

/-- The name of a directory of packages. -/
def packageName : List Char := "node_modules".toList

/-- The pattern of all that stands below a directory of packages. -/
def packagePattern : List Char := "**/node_modules/**".toList

/-- The name of a directory of packages behind others, and what comes below it or nothing. -/
def packageRegex (barred below : Regex) : Regex :=
  .sequence .start
    (.sequence
      (.sequence (nameStartBehind barred)
        (wordRegex packageName (.sequence (.either below (.sequence .stop .empty)) .empty)))
      (.sequence .stop .empty))

set_option maxRecDepth 2000 in
theorem exists_regexOf_packagePattern (shown : Bool)
    : ∃ barred guard barred',
        regexOf shown packagePattern = packageRegex barred (belowBehind guard barred')
        ∧ (shown = false → barred = hiddenRegex) := by
  cases shown with
  | false => exact ⟨hiddenRegex, _, _, rfl, fun _ => rfl⟩
  | true => exact ⟨_, _, _, rfl, nofun⟩

variable {word text : List Char} {names folder : Location} {shown : Bool}

-----------------------------------------------------------------------------------------
-- What has been matched
-----------------------------------------------------------------------------------------

/-- The characters of a word are passed one by one, by induction on the word. -/
theorem carries_spelled {last : Regex} {P Q : Regex.Property}
    (h : Carries last (fun before after => ∃ before',
        P before' (word.map Char.toNat ++ after)
        ∧ before = (word.map Char.toNat).reverse ++ before') Q)
    : Carries (wordRegex word last) P Q := by
  induction word generalizing P with
  | nil => exact fun rest spot found at_ matched => h ⟨_, at_, rfl⟩ matched
  | cons c word ih =>
      have first : Carries (.exactly c.toNat) P (fun before after =>
          ∃ before', P before' (c.toNat :: after) ∧ before = c.toNat :: before') :=
        Regex.carries_exactly fun before _ at_ => ⟨before, at_, rfl⟩
      refine first.sequence (ih fun rest spot found at_ matched => h ?_ matched)
      obtain ⟨_, ⟨before, at_, rfl⟩, eq⟩ := at_
      exact ⟨before, at_, by simpa using eq⟩

/-- What holds where a slash comes is known behind it and the names that follow. -/
theorem carries_belowBehind {guard barred : Regex} {P : Regex.Property} {fact : Prop}
    (h : ∀ before after, P before (47 :: after) → fact)
    : Carries (belowBehind guard barred) P (fun _ _ => fact) := by
  have unit : Carries (.sequence (.look true true barred)
      (.sequence (.oneOf true UnitSet.lineEnds) .empty)) (fun _ _ => fact) (fun _ _ => fact) :=
    Regex.carries_look.sequence
      ((Regex.carries_oneOf fun _ _ _ _ known => known).sequence Regex.carries_empty)
  exact (Regex.carries_exactly h).sequence (Regex.carries_look.sequence
    ((unit.times.sequence Regex.carries_empty).sequence Regex.carries_empty))

/-- What comes below a place or nothing: a slash follows the place, or the text ends. -/
theorem carries_belowOrEnd {guard barred : Regex} {P : Regex.Property} {fact : Prop}
    (h : ∀ before after, P before after → after = [] ∨ after.head? = some 47 → fact)
    : Carries (.sequence (.either (belowBehind guard barred) (.sequence .stop .empty)) .empty) P
        (fun _ _ => fact) := by
  refine (Carries.either (carries_belowBehind ?_) ?_).sequence Regex.carries_empty
  · exact fun before after at_ => h before _ at_ (.inr rfl)
  · exact (Regex.carries_stop.weaken fun before after at_ =>
      h before after at_.1 (.inl at_.2)).sequence
      Regex.carries_empty

/-- A text whose units start with those of a word starts with the word, by induction on the word. -/
theorem exists_append_of_word {units : List Nat}
    (single : ∀ c ∈ word, c.toNat < 0x10000)
    (h : text.flatMap Text.unitsOf = word.map Char.toNat ++ units)
    : ∃ more, text = word ++ more ∧ more.flatMap Text.unitsOf = units := by
  induction word generalizing text with
  | nil => exact ⟨text, rfl, h⟩
  | cons c word ih =>
      rw [List.forall_mem_cons] at single
      have noSurrogate : c.toNat < 0xD800 ∨ 0xE000 ≤ c.toNat := c.valid.imp_right And.left
      obtain ⟨c', left, rfl, isFirst, later⟩ := exists_cons_of_units noSurrogate h
      obtain rfl : c' = c := Char.toNat_inj.1 isFirst
      obtain ⟨more, rfl, eq⟩ := ih single.2 later
      exact ⟨more, rfl, eq⟩

-----------------------------------------------------------------------------------------
-- Directories of packages
-----------------------------------------------------------------------------------------

/-- A path that the pattern of the contents of packages matches leads through a directory of
packages.
-/
theorem mem_of_isFoundIn_packagePattern (named : names.Named) (nonempty : names ≠ [])
    (h : (regexOf shown packagePattern).isFoundIn (PathText.join names).toList = true)
    : String.ofList packageName ∈ names := by
  obtain ⟨barred, guard, barred', regex, _⟩ := exists_regexOf_packagePattern shown
  rw [regex] at h
  let units := (PathText.join names).toList.flatMap Text.unitsOf
  obtain ⟨start, stop, found, eq, matched⟩ := Regex.exists_of_isFoundFrom h
  have whole : Carries (packageRegex barred (belowBehind guard barred')) (InText units)
      (fun _ _ => ∃ before after,
        AtName units before (packageName.map Char.toNat ++ after)
        ∧ (after = [] ∨ after.head? = some 47)) := by
    refine Regex.carries_start.sequence (((carries_nameStart barred).sequence
      (carries_spelled (carries_belowOrEnd ?_))).sequence
        ((Regex.carries_stop.weaken fun _ _ at_ => at_.1).sequence Regex.carries_empty))
    rintro _ after ⟨before, at_, _⟩ ends
    exact ⟨before, after, at_, ends⟩
  obtain ⟨_, ⟨before, after, ⟨inText, starts⟩, ends⟩, _⟩ :=
    @whole some ⟨start, stop, []⟩ found eq matched
  have single : ∀ c ∈ packageName, c.toNat < 0x10000 := by
    have all : (packageName.all fun c => c.toNat < 0x10000) = true := by decide
    simpa only [List.all_eq_true, decide_eq_true_eq] using all
  have noSlash : '/' ∉ packageName := by decide
  have segments := PathText.segments_join named nonempty
  rw [PathText.segments] at segments
  rw [← segments]
  apply List.mem_map_of_mem
  rcases starts with rfl | slashed
  · obtain ⟨more, eq, rfl⟩ := exists_append_of_word single inText.symm
    rw [eq]
    exact mem_splitOn_of_units packageName noSlash ends
  · obtain ⟨lead, rfl⟩ := List.head?_eq_some_iff.1 slashed
    have cut : units = lead.reverse ++ 47 :: (packageName.map Char.toNat ++ after) := by
      rw [← inText]
      simp
    obtain ⟨left, right, eq, rest⟩ := exists_append_of_units cut
    obtain ⟨more, rfl, rfl⟩ := exists_append_of_word single rest
    rw [eq, Text.splitOn_append_cons]
    exact List.mem_append_right _ (mem_splitOn_of_units packageName noSlash ends)

/-- The pattern of the contents of packages matches a directory of packages itself, if no name above
it is hidden.
-/
theorem isFoundIn_packagePattern {lead : List Char} (starts : lead = [] ∨ lead.getLast? = some '/')
    (shown : ¬ HasHidden (lead.flatMap Text.unitsOf))
    (line : ∀ unit ∈ lead.flatMap Text.unitsOf, UnitSet.lineEnds.has unit = false)
    : (regexOf false packagePattern).isFoundIn (lead ++ packageName) = true := by
  obtain ⟨barred, guard, barred', regex, isHidden⟩ := exists_regexOf_packagePattern false
  rw [isHidden rfl] at regex
  have chars : ∀ c ∈ packageName, IsSpelled c := by
    have all : packageName.all isOwn = true := by decide
    exact fun c member => .inl (List.all_eq_true.1 all c member)
  have ends (before : List Nat)
      : Reaches (.sequence (.either (belowBehind guard barred') (.sequence .stop .empty)) .empty)
          ⟨before, [], []⟩ ⟨before, [], []⟩ :=
    ((Regex.reaches_stop rfl).sequence (Regex.reaches_empty _)).either_right.sequence
      (Regex.reaches_empty _)
  have units : (lead ++ packageName).flatMap Text.unitsOf
      = lead.flatMap Text.unitsOf ++ (packageName.flatMap Text.unitsOf ++ []) := by
    simp
  rw [regex]
  apply Regex.isFoundIn_of_reaches
  rw [units]
  exact (Regex.reaches_start rfl).sequence
    (((reaches_nameStart (units_starts starts) shown line _).sequence
      (reaches_wordRegex _ _ chars (ends _))).sequence
        ((Regex.reaches_stop rfl).sequence (Regex.reaches_empty _)))

-----------------------------------------------------------------------------------------
-- Directories that spell themselves
-----------------------------------------------------------------------------------------

/-- A path that the pattern of all that stands below a directory matches is that of the directory or
leads through it.
-/
theorem prefix_of_isFoundIn_folderPattern (named : names.Named) (nonempty : names ≠ [])
    (named' : folder.Named) (nonempty' : folder ≠ [])
    (isLiteral : IsLiteral (PathText.join folder).toList)
    (h : (regexOf shown (folderPattern (PathText.join folder).toList)).isFoundIn
        (PathText.join names).toList = true)
    : folder <+: names := by
  let text := (PathText.join folder).toList
  obtain ⟨guard, barred, regex⟩ : ∃ guard barred,
      regexOf shown (folderPattern text) = folderRegex text (belowBehind guard barred) := by
    obtain ⟨guard, barred, regex, _⟩ := exists_regexOf_folderPattern isLiteral
    exact ⟨guard, barred, regex⟩
  rw [regex] at h
  let units := (PathText.join names).toList.flatMap Text.unitsOf
  obtain ⟨start, stop, found, eq, matched⟩ := Regex.exists_of_isFoundFrom h
  have whole : Carries (folderRegex text (belowBehind guard barred)) (InText units)
      (fun _ _ => ∃ after,
        text.map Char.toNat ++ after = units ∧ (after = [] ∨ after.head? = some 47)) := by
    refine Regex.carries_start.sequence ((carries_spelled (carries_belowOrEnd ?_)).sequence
      ((Regex.carries_stop.weaken fun _ _ at_ => at_.1).sequence Regex.carries_empty))
    rintro _ after ⟨_, ⟨inText, rfl⟩, _⟩ ends
    exact ⟨after, inText, ends⟩
  obtain ⟨_, ⟨after, same, ends⟩, _⟩ := @whole some ⟨start, stop, []⟩ found eq matched
  have single : ∀ c ∈ text, c.toNat < 0x10000 := by
    intro c member
    rcases isLiteral.chars c member with isWord | rfl | rfl | rfl | rfl | rfl
    · exact toNat_of_isWord isWord
    all_goals decide
  obtain ⟨more, eq, rfl⟩ := exists_append_of_word single same.symm
  have segments := PathText.segments_join named nonempty
  have segments' := PathText.segments_join named' nonempty'
  rw [PathText.segments] at segments segments'
  rcases ends with atEnd | slashed
  · have nothing : more = [] := by
      cases more with
      | nil => rfl
      | cons c more =>
          rw [List.flatMap_cons, List.append_eq_nil_iff, Text.unitsOf] at atEnd
          split at atEnd <;> cases atEnd.1
    rw [nothing, List.append_nil] at eq
    rw [← segments, eq, segments']
  · obtain ⟨rest, eq'⟩ := List.head?_eq_some_iff.1 slashed
    obtain ⟨c, right, rfl, isSlash, _⟩ := exists_cons_of_units (by decide) eq'
    obtain rfl : c = '/' := Char.toNat_inj.1 isSlash
    rw [← segments, eq, Text.splitOn_append_cons, List.map_append, segments']
    exact List.prefix_append _ _

end Stencil.Files.Glob
