import Stencil.Proofs.Files.Glob.BelowRegex

/-! Which paths the pattern of templates matches: those through names of which none is hidden and
whose last one has the suffix and an extension. The directory part is on one line, and the last name
starts there.
-/

namespace Stencil.Files.Glob

open Regex (Carries Reaches)

variable {word lead name : List Char} {names : Location}

-----------------------------------------------------------------------------------------
-- Hidden names
-----------------------------------------------------------------------------------------

/-- The name starts with a dot. -/
def IsHidden (name : String) : Prop := name.toList.head? = some '.'

instance (name : String) : Decidable (IsHidden name) :=
  inferInstanceAs (Decidable (_ = _))

/-- The units of a text have a dot at the start of a name if the text has. -/
theorem hasHidden_units_iff {text : List Char}
    : HasHidden (text.flatMap Text.unitsOf)
      ↔ text.head? = some '.' ∨ ['/', '.'] <:+: text := by
  have slash : Text.unitsOf '/' = [47] := rfl
  have dot : Text.unitsOf '.' = [46] := rfl
  constructor
  · rintro (isDot | ⟨left, right, eq⟩)
    · obtain ⟨units, eq⟩ := List.head?_eq_some_iff.1 isDot
      obtain ⟨c, more, rfl, isDot, _⟩ := exists_cons_of_units (by decide) eq
      exact .inl (congrArg some (Char.toNat_inj.1 isDot))
    · have cut : text.flatMap Text.unitsOf = left ++ 47 :: (46 :: right) := by simp [← eq]
      obtain ⟨before, after, rfl, rest⟩ := exists_append_of_units cut
      obtain ⟨c, more, rfl, isDot, _⟩ := exists_cons_of_units (by decide) rest
      obtain rfl : c = '.' := Char.toNat_inj.1 isDot
      exact .inr ⟨before, more, by simp⟩
  · rintro (isDot | ⟨left, right, rfl⟩)
    · obtain ⟨more, rfl⟩ := List.head?_eq_some_iff.1 isDot
      exact .inl rfl
    · exact .inr ⟨left.flatMap Text.unitsOf, right.flatMap Text.unitsOf, by simp [slash, dot]⟩

/-- Where a slash and a dot stand behind a name without slashes, by induction on the name. -/
theorem infix_slashDot_iff {text : List Char} (noSlash : '/' ∉ name)
    : ['/', '.'] <:+: name ++ '/' :: text ↔ text.head? = some '.' ∨ ['/', '.'] <:+: text := by
  induction name with
  | nil =>
      rw [List.nil_append, List.infix_cons_iff, List.cons_prefix_cons, List.head?_eq_some_iff]
      simp [List.IsPrefix, eq_comm]
  | cons c name ih =>
      rw [List.mem_cons, not_or] at noSlash
      rw [List.cons_append, List.infix_cons_iff, List.cons_prefix_cons, ih noSlash.2]
      simp [noSlash.1]

/-- A path has a dot at the start of a name if one of its names is hidden, by induction on the names.
-/
theorem hasHidden_join_iff (named : names.Named)
    : HasHidden ((PathText.join names).toList.flatMap Text.unitsOf)
      ↔ ∃ name ∈ names, IsHidden name := by
  rw [hasHidden_units_iff]
  induction names with
  | nil => simp [PathText.join]
  | cons first names ih =>
      have isFirst := named first (List.mem_cons_self ..)
      have nonempty : first.toList ≠ [] := fun empty => isFirst.nonempty (String.toList_inj.1 empty)
      rw [List.exists_mem_cons_iff]
      by_cases alone : names = []
      · subst alone
        have only : (PathText.join [first]).toList = first.toList := by simp [PathText.join]
        have absent : ¬ ['/', '.'] <:+: first.toList :=
          fun found => isFirst.noSlash (found.subset (List.mem_cons_self ..))
        simp [only, absent, IsHidden]
      · have split := PathText.toList_join_append (List.cons_ne_nil first []) alone
        have only : (PathText.join [first]).toList = first.toList := by simp [PathText.join]
        rw [List.singleton_append, only] at split
        rw [split, infix_slashDot_iff isFirst.noSlash,
          ih fun name member => named name (List.mem_cons_of_mem _ member),
          List.head?_append_of_ne_nil _ nonempty]
        rfl

-----------------------------------------------------------------------------------------
-- Matches
-----------------------------------------------------------------------------------------

/-- The expression of a hidden name matches only before one. -/
theorem carries_hiddenRegex {before after : List Nat}
    : Carries hiddenRegex (fun before' after' => before' = before ∧ after' = after)
        (fun _ _ => HiddenAhead before after) := by
  have starts : Carries (.either (.sequence .start .empty) (.sequence (.exactly 47) .empty))
      (fun before' after' => before' = before ∧ after' = after)
      (fun _ after' => before = [] ∧ after' = after ∨ after = 47 :: after') := by
    refine Carries.either ?_ ?_
    · refine (Regex.carries_start.weaken ?_).sequence Regex.carries_empty
      rintro _ _ ⟨⟨rfl, rfl⟩, atStart⟩
      exact .inl ⟨atStart, rfl⟩
    · refine (Regex.carries_exactly ?_).sequence Regex.carries_empty
      exact fun _ _ at_ => .inr at_.2.symm
  refine starts.sequence ((Regex.carries_exactly ?_).sequence Regex.carries_empty)
  rintro _ after' (⟨rfl, rfl⟩ | rfl)
  · exact .inl ⟨rfl, rfl⟩
  · exact .inr ⟨after', rfl⟩

/-- No hidden name comes up in a directory part that has none. -/
theorem not_hiddenAhead {way passed left after : List Nat} {unit : Nat}
    (shown : ¬ HasHidden (way ++ [47])) (eq : way = passed ++ unit :: left)
    : ¬ HiddenAhead passed.reverse (unit :: (left ++ 47 :: after)) := by
  subst eq
  rintro (⟨atStart, isDot⟩ | ⟨more, eq⟩)
  · rw [List.reverse_eq_nil_iff] at atStart
    subst atStart
    exact shown (.inl isDot)
  · obtain ⟨rfl, rest⟩ := List.cons.inj eq
    cases left with
    | nil => cases rest
    | cons next left =>
        obtain ⟨rfl, _⟩ := List.cons.inj rest
        exact shown (.inr ⟨passed, left ++ [47], by simp⟩)

/-- A name may start behind others that are not hidden, on one line. -/
theorem reaches_nameStart {lead : List Nat} (starts : lead = [] ∨ lead.getLast? = some 47)
    (shown : ¬ HasHidden lead) (line : ∀ unit ∈ lead, UnitSet.lineEnds.has unit = false)
    (after : List Nat)
    : Reaches nameStartRegex ⟨[], lead ++ after, []⟩ ⟨lead.reverse, after, []⟩ := by
  rcases starts with rfl | slashed
  · exact ((Regex.reaches_start rfl).sequence (Regex.reaches_empty _)).either_left
  · obtain ⟨way, rfl⟩ := List.getLast?_eq_some_iff.1 slashed
    have names : Reaches (.times 0 none true (.sequence (.look true true hiddenRegex)
        (.sequence (.oneOf true UnitSet.lineEnds) .empty)))
        ⟨[], way ++ 47 :: after, []⟩ ⟨way.reverse ++ [], 47 :: after, []⟩ := by
      refine Regex.reaches_times fun passed unit left eq => ?_
      have passes : (UnitSet.lineEnds.has unit != true) = true := by
        rw [line unit (by simp [eq])]
        rfl
      rw [List.append_nil]
      exact (Regex.reaches_notAhead carries_hiddenRegex ⟨rfl, rfl⟩
        fun _ _ => not_hiddenAhead shown eq).sequence
          ((Regex.reaches_oneOf passes _ _ _).sequence (Regex.reaches_empty _))
    have slash : Reaches (.sequence (.exactly 47) .empty) ⟨way.reverse, 47 :: after, []⟩
        ⟨47 :: way.reverse, after, []⟩ :=
      (Regex.reaches_exactly _ _ _ _).sequence (Regex.reaches_empty _)
    rw [List.append_nil] at names
    rw [List.append_assoc, List.singleton_append, List.reverse_append, List.reverse_singleton,
      List.singleton_append]
    exact ((names.sequence (Regex.reaches_empty _)).sequence slash).either_right.either_right

theorem reaches_anyUnits {units : List Nat} (noSlash : 47 ∉ units) (before after : List Nat)
    : Reaches anyUnitsRegex ⟨before, units ++ after, []⟩ ⟨units.reverse ++ before, after, []⟩ := by
  refine Regex.reaches_times fun passed unit left eq => Regex.reaches_oneOf ?_ _ _ _
  have other : unit ≠ 47 := by
    rintro rfl
    exact noSlash (by simp [eq])
  simp only [UnitSet.has, List.any_cons, List.any_nil, Bool.or_false, bne_iff_ne, ne_eq,
    Bool.and_eq_true, decide_eq_true_eq]
  omega

/-- What stands behind the name of a template before its suffix, as units. -/
theorem reaches_suffix (isWord : IsWord word) {ending : List Nat} (noSlash : 47 ∉ ending)
    (before : List Nat)
    : ∃ stop : Regex.Spot,
        stop.after = []
        ∧ Reaches (.sequence (.exactly 46)
            (wordRegex word
              (.sequence (.exactly 46)
                (.sequence anyUnitsRegex
                  (.sequence (.times 0 (some 1) false (.exactly 47)) .empty)))))
            ⟨before, 46 :: (word.flatMap Text.unitsOf ++ 46 :: (ending ++ [])), []⟩ stop := by
  refine ⟨_, ?_, (Regex.reaches_exactly _ _ _ _).sequence
    (reaches_wordRegex _ _ (fun c member => .inl (isWord.isWord c member))
      ((Regex.reaches_exactly _ _ _ _).sequence ((reaches_anyUnits noSlash _ _).sequence
        ((Regex.reaches_times_zero _).sequence (Regex.reaches_empty _)))))⟩
  rfl

theorem HasHidden.append {units : List Nat} (h : HasHidden units) (more : List Nat)
    : HasHidden (units ++ more) := by
  rcases h with isDot | pair
  · obtain ⟨left, rfl⟩ := List.head?_eq_some_iff.1 isDot
    exact .inl rfl
  · exact .inr (pair.trans (List.prefix_append _ _).isInfix)

/-- Where no name up to a place and at it is hidden, none is before the place, and no dot comes there.
-/
theorem not_hasHidden_left {lead after : List Nat} {unit : Nat}
    (starts : lead = [] ∨ lead.getLast? = some 47) (shown : ¬ HasHidden (lead ++ unit :: after))
    : ¬ HasHidden lead ∧ unit ≠ 46 := by
  refine ⟨fun isHidden => shown (isHidden.append _), ?_⟩
  · rintro rfl
    rcases starts with rfl | slashed
    · exact shown (.inl rfl)
    · obtain ⟨way, rfl⟩ := List.getLast?_eq_some_iff.1 slashed
      exact shown (.inr ⟨way, after, by simp⟩)

/-- The pattern of templates matches a path whose last name has the suffix and an extension, if no
name of it is hidden and the last name starts on the first line.
-/
theorem isFoundIn_templateRegex (isWord : IsWord word) {front ending : List Char}
    (starts : lead = [] ∨ lead.getLast? = some '/') (nonempty : front ≠ [])
    (noSlash : '/' ∉ front ++ ending)
    (shown : ¬ HasHidden ((lead ++ front).flatMap Text.unitsOf))
    (line : ∀ unit ∈ lead.flatMap Text.unitsOf, UnitSet.lineEnds.has unit = false)
    (line' : ∀ unit ∈ (front.flatMap Text.unitsOf).head?, UnitSet.lineEnds.has unit = false)
    : (templateRegex word).isFoundIn (lead ++ (front ++ '.' :: (word ++ '.' :: ending))) = true := by
  have noSlash' := slash_not_mem_units noSlash
  rw [List.flatMap_append, List.mem_append, not_or] at noSlash'
  have dot : Text.unitsOf '.' = [46] := rfl
  have units : (lead ++ (front ++ '.' :: (word ++ '.' :: ending))).flatMap Text.unitsOf
      = lead.flatMap Text.unitsOf ++ (front.flatMap Text.unitsOf
        ++ 46 :: (word.flatMap Text.unitsOf ++ 46 :: (ending.flatMap Text.unitsOf ++ []))) := by
    simp [dot]
  obtain ⟨first, more, isFront⟩ : ∃ first more, front.flatMap Text.unitsOf = first :: more := by
    obtain ⟨c, rest, rfl⟩ := List.exists_cons_of_ne_nil nonempty
    rw [List.flatMap_cons, Text.unitsOf]
    split <;> exact ⟨_, _, rfl⟩
  rw [List.flatMap_append, isFront] at shown
  obtain ⟨shown, notDot⟩ := not_hasHidden_left (units_starts starts) shown
  rw [isFront] at line' noSlash'
  have passes : (UnitSet.lineEnds.has first != true) = true := by
    rw [line' first rfl]
    rfl
  have noDot : Carries (.sequence (.exactly 46) .empty)
      (fun _ after => after.head? = some first) (fun _ _ => first = 46) := by
    refine (Regex.carries_exactly fun _ _ isFirst => ?_).sequence Regex.carries_empty
    exact (Option.some.inj isFirst).symm
  obtain ⟨stop, atEnd, suffix⟩ := reaches_suffix isWord noSlash'.2
    ((first :: more).reverse ++ (lead.flatMap Text.unitsOf).reverse)
  have reached : Reaches (templateRegex word)
      ⟨[], (lead ++ (front ++ '.' :: (word ++ '.' :: ending))).flatMap Text.unitsOf, []⟩ stop := by
    rw [units, isFront]
    exact (Regex.reaches_start rfl).sequence
      (((reaches_nameStart (units_starts starts) shown line _).sequence
        ((Regex.reaches_notAhead noDot rfl fun _ _ => notDot).sequence
          ((Regex.reaches_unitAhead passes _ _ _).sequence
            ((reaches_anyUnits noSlash'.1 _ _).sequence suffix)))).sequence
        ((Regex.reaches_stop atEnd).sequence (Regex.reaches_empty _)))
  exact Regex.isFoundIn_of_reaches reached

end Stencil.Files.Glob
