import Stencil.Position
import Stencil.Text

/-! Texts as 16-bit units. Slices are parts of a text by its units, and offsets are numbers of units.
The order of units is total, so sorting by it puts each text before those that it comes before.
-/

namespace Stencil

namespace Text

/-! ### Slices -/

/-- The 16-bit units of a text from one offset up to another one. -/
def unitSlice (text : List Char) (start stop : Nat) : List Nat :=
  ((text.flatMap unitsOf).take stop).drop start

/-- A character has as many units as its width says, and so at least one. -/
theorem length_unitsOf (c : Char) : (unitsOf c).length = unitWidth c := by
  unfold unitsOf unitWidth
  split <;> rfl

theorem unitWidth_pos (c : Char) : 0 < unitWidth c := by
  unfold unitWidth
  split <;> decide

/-- The number of units is the number of items of the list of units. -/
theorem units_eq_length (text : List Char) : units text = (text.flatMap unitsOf).length := by
  have widths (total : Nat)
      : text.foldl (fun total c => total + unitWidth c) total
        = total + (text.flatMap unitsOf).length := by
    induction text generalizing total with
    | nil => rfl
    | cons c rest ih =>
        rw [List.foldl_cons, ih, List.flatMap_cons, List.length_append, length_unitsOf,
          Nat.add_assoc]
  rw [units, widths, Nat.zero_add]

theorem units_pos {text : List Char} (nonempty : text ≠ []) : 0 < units text := by
  cases text with
  | nil => exact absurd rfl nonempty
  | cons c rest =>
      rw [units_eq_length, List.flatMap_cons, List.length_append, length_unitsOf]
      have := unitWidth_pos c
      omega

/-- A part of a text is the slice between its ends. -/
theorem unitSlice_append (before source after : List Char)
    : unitSlice (before ++ source ++ after) (units before) (units (before ++ source))
      = source.flatMap unitsOf := by
  simp only [unitSlice, units_eq_length, List.flatMap_append]
  rw [List.take_left' rfl, List.drop_left' rfl]

/-! ### The order of units -/

theorem lexLE_total (first second : List Nat)
    : (lexLE first second || lexLE second first) = true := by
  induction first generalizing second with
  | nil => rfl
  | cons a as ih =>
      cases second with
      | nil => rfl
      | cons b bs =>
          have rest := ih bs
          simp only [lexLE, Bool.or_eq_true, Bool.and_eq_true, decide_eq_true_eq, beq_iff_eq]
            at rest ⊢
          rcases Nat.lt_trichotomy a b with less | same | more
          · exact .inl (.inl less)
          · exact rest.imp (fun le => .inr ⟨same, le⟩) fun le => .inr ⟨same.symm, le⟩
          · exact .inr (.inl more)

theorem lexLE_trans {first second third : List Nat} (le : lexLE first second = true)
    (le' : lexLE second third = true)
    : lexLE first third = true := by
  induction first generalizing second third with
  | nil => rfl
  | cons a as ih =>
      cases second with
      | nil => cases le
      | cons b bs =>
          cases third with
          | nil => cases le'
          | cons c cs =>
              simp only [lexLE, Bool.or_eq_true, Bool.and_eq_true, decide_eq_true_eq, beq_iff_eq]
                at le le' ⊢
              rcases le with less | ⟨rfl, le⟩
              · exact .inl (le'.elim (Nat.lt_trans less) fun same => same.1 ▸ less)
              · exact le'.imp_right fun same => ⟨same.1, ih le same.2⟩

/-- Sorted texts are in order. -/
theorem pairwise_sortByUnits (texts : List String)
    : (sortByUnits texts).Pairwise fun first second => unitsLE first second = true := by
  refine List.pairwise_mergeSort (fun first second third le le' => ?_) (fun first second => ?_) texts
  · rw [unitsLE] at le le' ⊢
    exact lexLE_trans le le'
  · rw [unitsLE, unitsLE]
    exact lexLE_total _ _

end Text

/-- The offset behind a text grows by the units of the text. -/
theorem Position.offset_after (position : Position) (text : List Char)
    : (position.after text).offset = position.offset + Text.units text := by
  induction text generalizing position with
  | nil => rfl
  | cons c rest ih =>
      have width : (position.step c).offset = position.offset + Text.unitWidth c := by
        unfold step
        split
        · rename_i lineFeed
          subst lineFeed
          rfl
        · rfl
      rw [after_cons, ih, width, Text.units_eq_length, Text.units_eq_length, List.flatMap_cons,
        List.length_append, Text.length_unitsOf, Nat.add_assoc]

end Stencil
