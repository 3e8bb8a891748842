import Stencil.Proofs.Files.Glob.FolderRegex
import Stencil.Proofs.Files.Places

/-! What the pattern of all that stands below a directory matches where hidden names are shown: all
paths that lead from the directory through names, on one line.
-/

namespace Stencil.Files.Glob

open Regex (Carries Reaches)

-----------------------------------------------------------------------------------------
-- Units and names
-----------------------------------------------------------------------------------------

variable {text : List Char} {names : Location}

/-- A unit that is no surrogate is a character. -/
theorem exists_cons_of_units {unit : Nat} {units : List Nat}
    (single : unit < 0xD800 ∨ 0xE000 ≤ unit)
    (h : text.flatMap Text.unitsOf = unit :: units)
    : ∃ c more, text = c :: more ∧ c.toNat = unit ∧ more.flatMap Text.unitsOf = units := by
  cases text with
  | nil => cases h
  | cons c more =>
      rw [List.flatMap_cons, Text.unitsOf] at h
      split at h
      · obtain ⟨same, rest⟩ := List.cons.inj h
        exact ⟨c, more, rfl, same, rest⟩
      · have high := (List.cons.inj h).1
        have bound : c.toNat < 0xD800 ∨ 0xDFFF < c.toNat ∧ c.toNat < 0x110000 := c.valid
        omega

/-- Where a slash stands among the units of a text, it stands in the text, by induction on the text.
-/
theorem exists_append_of_units {lead tail : List Nat}
    (h : text.flatMap Text.unitsOf = lead ++ 47 :: tail)
    : ∃ left right, text = left ++ '/' :: right ∧ right.flatMap Text.unitsOf = tail := by
  induction text generalizing lead with
  | nil => simp at h
  | cons c text ih =>
      rw [List.flatMap_cons] at h
      rcases List.append_eq_append_iff.1 h with ⟨more, rfl, rest⟩ | ⟨more, own, rest⟩
      · obtain ⟨left, right, rfl, same⟩ := ih rest
        exact ⟨c :: left, right, rfl, same⟩
      · cases more with
        | nil =>
            have atStart : text.flatMap Text.unitsOf = [] ++ 47 :: tail := rest.symm
            obtain ⟨left, right, rfl, same⟩ := ih atStart
            exact ⟨c :: left, right, rfl, same⟩
        | cons unit more =>
            obtain ⟨rfl, rfl⟩ := List.cons.inj rest
            obtain rfl : c = '/' := eq_slash_of_mem_unitsOf (own ▸ by simp)
            -- A slash is one unit, so nothing else of it is left on either side.
            have slash : Text.unitsOf '/' = [47] := rfl
            have alone : lead.length + (more.length + 1) = 1 := by
              simpa [slash] using (congrArg List.length own).symm
            obtain rfl : more = [] := List.length_eq_zero_iff.1 (by omega)
            exact ⟨[], text, rfl, rfl⟩

/-- Units start with a name of one or two dots. -/
def StartsDotName (units : List Nat) : Prop :=
  ∃ dots after,
    units = dots ++ after
    ∧ (dots = [46] ∨ dots = [46, 46])
    ∧ (after = [] ∨ after.head? = some 47)

/-- A piece of a text ends where the text does, or a slash follows it. -/
theorem mem_splitOn_of_units (piece : List Char) {more : List Char} (noSlash : '/' ∉ piece)
    (ends : more.flatMap Text.unitsOf = [] ∨ (more.flatMap Text.unitsOf).head? = some 47)
    : piece ∈ Text.splitOn '/' (piece ++ more) := by
  rcases ends with atEnd | slashed
  · obtain rfl : more = [] := by
      cases more with
      | nil => rfl
      | cons c more =>
          rw [List.flatMap_cons, List.append_eq_nil_iff, Text.unitsOf] at atEnd
          split at atEnd <;> cases atEnd.1
    rw [List.append_nil, (Text.splitOn_append noSlash []).1]
    exact List.mem_singleton_self _
  · obtain ⟨units, eq⟩ := List.head?_eq_some_iff.1 slashed
    obtain ⟨c, rest, rfl, isSlash, _⟩ := exists_cons_of_units (by decide) eq
    obtain rfl : c = '/' := Char.toNat_inj.1 isSlash
    rw [(Text.splitOn_append noSlash rest).2]
    exact List.mem_cons_self ..

/-- On both sides of a slash in joined names there are names. -/
theorem isName_of_join_eq (named : names.Named) (nonempty : names ≠ []) (left right : List Char)
    (h : (PathText.join names).toList = left ++ '/' :: right)
    : ∀ piece ∈ Text.splitOn '/' left ++ Text.splitOn '/' right,
        IsName (String.ofList piece) := by
  intro piece member
  have split := PathText.segments_join named nonempty
  rw [PathText.segments, h, Text.splitOn_append_cons] at split
  exact named _ (split ▸ List.mem_map_of_mem member)

theorem not_startsDotName (named : ∀ piece ∈ Text.splitOn '/' text, IsName (String.ofList piece))
    : ¬ StartsDotName (text.flatMap Text.unitsOf) := by
  rintro ⟨dots, after, eq, isDots, ends⟩
  rcases isDots with rfl | rfl
  · obtain ⟨c, more, rfl, isDot, rfl⟩ := exists_cons_of_units (by decide) eq
    obtain rfl : c = '.' := Char.toNat_inj.1 isDot
    exact (named _ (mem_splitOn_of_units ['.'] (by decide) ends)).notHere rfl
  · obtain ⟨c, rest, rfl, isDot, eq⟩ := exists_cons_of_units (by decide) eq
    obtain ⟨c', more, rfl, isDot', rfl⟩ := exists_cons_of_units (by decide) eq
    obtain rfl : c = '.' := Char.toNat_inj.1 isDot
    obtain rfl : c' = '.' := Char.toNat_inj.1 isDot'
    exact (named _ (mem_splitOn_of_units ['.', '.'] (by decide) ends)).notAbove rfl

theorem not_isLineEnd_of_mem_unitsOf {c : Char} {unit : Nat}
    (line : UnitSet.lineEnds.has c.toNat = false) (member : unit ∈ Text.unitsOf c)
    : UnitSet.lineEnds.has unit = false := by
  rw [Text.unitsOf] at member
  split at member
  · rwa [List.mem_singleton.1 member]
  · simp only [List.mem_cons, List.not_mem_nil, or_false] at member
    simp only [UnitSet.has, UnitSet.lineEnds, List.any_cons, List.any_nil, Bool.or_false,
      Bool.or_eq_false_iff, Bool.and_eq_false_iff, decide_eq_false_iff_not]
    omega

-----------------------------------------------------------------------------------------
-- What the expression matches
-----------------------------------------------------------------------------------------

theorem carries_dotName {units : List Nat}
    : Carries dotNameRegex (fun _ after => after = units) (fun _ _ => StartsDotName units) := by
  have first : Carries (.exactly 46) (fun _ after => after = units)
      (fun _ after => units = 46 :: after) :=
    Regex.carries_exactly fun _ _ at_ => at_.symm
  have second : Carries (.exactly 46) (fun _ after => units = 46 :: after)
      (fun _ after => units = 46 :: 46 :: after) :=
    Regex.carries_exactly fun _ _ at_ => at_
  refine (first.oneOrTwo second).sequence ((Carries.either ?_ ?_).sequence Regex.carries_empty)
  · refine (Regex.carries_exactly fun _ after at_ => ?_).sequence Regex.carries_empty
    rcases at_ with eq | eq
    · exact ⟨[46], 47 :: after, eq, .inl rfl, .inr rfl⟩
    · exact ⟨[46, 46], 47 :: after, eq, .inr rfl, .inr rfl⟩
  · refine (Regex.carries_stop.weaken fun _ after at_ => ?_).sequence Regex.carries_empty
    obtain ⟨eq | eq, rfl⟩ := at_
    · exact ⟨[46], [], eq, .inl rfl, .inl rfl⟩
    · exact ⟨[46, 46], [], eq, .inr rfl, .inl rfl⟩

/-- A unit is passed if it ends no line, and no name of dots follows where it is a slash. -/
theorem reaches_namesUnit {before after : List Nat} {unit : Nat} (inside : before ≠ [])
    (names : unit = 47 → ¬ StartsDotName after) (line : UnitSet.lineEnds.has unit = false)
    : Reaches namesUnitRegex ⟨before, unit :: after, []⟩ ⟨unit :: before, after, []⟩ := by
  have start : Carries (.either (.sequence .start .empty) (.sequence (.exactly 47) .empty))
      (fun before' after' => before' = before ∧ after' = unit :: after)
      (fun _ after' => unit = 47 ∧ after' = after) := by
    refine Carries.either ?_ ?_
    · refine (Regex.carries_start.weaken fun _ _ at_ => ?_).sequence Regex.carries_empty
      exact absurd (at_.1.1 ▸ at_.2) inside
    · refine (Regex.carries_exactly fun _ _ at_ => ?_).sequence Regex.carries_empty
      obtain ⟨same, rfl⟩ := List.cons.inj at_.2
      exact ⟨same.symm, rfl⟩
  have ahead : Carries
      (.sequence (.either (.sequence .start .empty) (.sequence (.exactly 47) .empty)) dotNameRegex)
      (fun before' after' => before' = before ∧ after' = unit :: after) (fun _ _ => False) := by
    intro rest spot found at_ matched
    obtain ⟨middle, ⟨isSlash, same⟩, matched⟩ := start at_ matched
    obtain ⟨_, dotted, _⟩ := carries_dotName same matched
    exact absurd dotted (names isSlash)
  have passes : (UnitSet.lineEnds.has unit != true) = true := by rw [line]; rfl
  exact (Regex.reaches_notAhead ahead ⟨rfl, rfl⟩ fun _ _ never => never).sequence
    ((Regex.reaches_oneOf passes _ _ _).sequence (Regex.reaches_empty _))

theorem reaches_below {before units : List Nat}
    (names : ∀ lead tail, 47 :: units = lead ++ 47 :: tail → ¬ StartsDotName tail)
    (line : ∀ unit ∈ units, UnitSet.lineEnds.has unit = false)
    : Reaches belowRegex ⟨before, 47 :: units, []⟩ ⟨units.reverse ++ (47 :: before), [], []⟩ := by
  have all : Reaches (.times 0 none true namesUnitRegex) ⟨47 :: before, units ++ [], []⟩
      ⟨units.reverse ++ (47 :: before), [], []⟩ := by
    refine Regex.reaches_times fun passed unit left eq => ?_
    refine reaches_namesUnit (by simp) (fun isSlash => ?_) (line unit (by simp [eq]))
    rw [List.append_nil]
    exact names (47 :: passed) left (by rw [eq, isSlash, List.cons_append])
  rw [List.append_nil] at all
  have starts : Reaches (.look true true dotNameRegex) ⟨47 :: before, units, []⟩
      ⟨47 :: before, units, []⟩ :=
    Regex.reaches_notAhead carries_dotName rfl fun _ _ => names [] units rfl
  exact (Regex.reaches_exactly _ _ _ _).sequence (starts.sequence
    ((all.sequence (Regex.reaches_empty _)).sequence (Regex.reaches_empty _)))

/-- The pattern of all that stands below a directory matches the paths that lead there. -/
theorem isFoundIn_folderPattern_below (isLiteral : IsLiteral text) (named : names.Named)
    (nonempty : names ≠ [])
    (line : ∀ c ∈ (PathText.join names).toList, UnitSet.lineEnds.has c.toNat = false)
    : (regexOf true (folderPattern text)).isFoundIn (text ++ '/' :: (PathText.join names).toList)
      = true := by
  obtain ⟨guard, barred, regex, isBelow⟩ := exists_regexOf_folderPattern isLiteral
  rw [isBelow rfl] at regex
  have slash : ('/' :: (PathText.join names).toList).flatMap Text.unitsOf
      = 47 :: (PathText.join names).toList.flatMap Text.unitsOf :=
    rfl
  have starts : ∀ lead tail,
      47 :: (PathText.join names).toList.flatMap Text.unitsOf = lead ++ 47 :: tail →
      ¬ StartsDotName tail := by
    intro lead tail eq
    rw [← slash] at eq
    obtain ⟨left, right, same, rfl⟩ := exists_append_of_units eq
    refine not_startsDotName fun piece member => ?_
    cases left with
    | nil =>
        have split := PathText.segments_join named nonempty
        rw [PathText.segments, (List.cons.inj same).2] at split
        exact named _ (split ▸ List.mem_map_of_mem member)
    | cons c left =>
        have within := (List.cons.inj same).2
        exact isName_of_join_eq named nonempty left right within piece
          (List.mem_append_right _ member)
  have line' : ∀ unit ∈ (PathText.join names).toList.flatMap Text.unitsOf,
      UnitSet.lineEnds.has unit = false := by
    intro unit member
    obtain ⟨c, inText, inUnits⟩ := List.mem_flatMap.1 member
    exact not_isLineEnd_of_mem_unitsOf (line c inText) inUnits
  rw [regex]
  exact isFoundIn_folderRegex isLiteral.chars (reaches_below starts line').either_left rfl

end Stencil.Files.Glob
