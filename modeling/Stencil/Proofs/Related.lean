import Mathlib.Data.List.Forall2

/-! Lists whose items are related in pairs. -/

namespace Stencil

variable {α β : Type} {R : α → β → Prop} {items : List α} {results : List β}

/-- Each of the results is related to an item. -/
theorem mem_of_forall₂ (h : List.Forall₂ R items results) {result : β} (member : result ∈ results)
    : ∃ item ∈ items, R item result := by
  induction h with
  | nil => exact absurd member List.not_mem_nil
  | cons first _ ih =>
      rcases List.mem_cons.1 member with rfl | later
      · exact ⟨_, List.mem_cons_self .., first⟩
      · obtain ⟨item, inRest, related⟩ := ih later
        exact ⟨item, List.mem_cons_of_mem _ inRest, related⟩

/-- Each of the items has a result. -/
theorem exists_of_forall₂ (h : List.Forall₂ R items results) {item : α} (member : item ∈ items)
    : ∃ result, R item result := by
  have swapped : List.Forall₂ (flip R) results items := h.flip
  obtain ⟨result, -, related⟩ := mem_of_forall₂ swapped member
  exact ⟨result, related⟩

/-- Where each of the items has a result, all of them have results, by induction on the items. -/
theorem exists_forall₂ (each : ∀ item ∈ items, ∃ result, R item result)
    : ∃ results, List.Forall₂ R items results := by
  induction items with
  | nil => exact ⟨[], .nil⟩
  | cons item items ih =>
      obtain ⟨result, here⟩ := each item List.mem_cons_self
      obtain ⟨results, later⟩ := ih fun other member => each other (List.mem_cons_of_mem _ member)
      exact ⟨result :: results, .cons here later⟩

/-- Modifying one result by a function that keeps a relation keeps the relation of the lists. -/
theorem forall₂_modify {f : β → β} (keeps : ∀ a b, R a b → R a (f b))
    (h : List.Forall₂ R items results) (index : Nat)
    : List.Forall₂ R items (results.modify index f) := by
  induction h generalizing index with
  | nil => simp
  | cons here rest ih =>
      cases index with
      | zero => exact .cons (keeps _ _ here) rest
      | succ index => exact .cons here (ih index)

/-- What is related to a list in two parts has two parts. -/
theorem forall₂_append_right {more : List β} (h : List.Forall₂ R items (results ++ more))
    : ∃ left right,
        List.Forall₂ R left results ∧ List.Forall₂ R right more ∧ items = left ++ right :=
  ⟨_, _, List.forall₂_take_append _ _ _ h, List.forall₂_drop_append _ _ _ h,
    (List.take_append_drop _ _).symm⟩

end Stencil
