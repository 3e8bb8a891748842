import Mathlib.Data.List.Forall2
import Mathlib.Data.Option.Basic
import Stencil.Value

/-! The shape of a value is all of it but the contents of its scalars. In two values of the same
shape the same addresses lead to something, and what they lead to has the same shape again.
-/

namespace Stencil

namespace Value

/-- Values with the same keys in their tables, the same numbers of items in their lists and the same
kinds of scalars. The order of table entries does not matter.
-/
inductive SameShape : Value → Value → Prop
  | scalar {s s' : Scalar} (kind : s.kind = s'.kind) : SameShape (.scalar s) (.scalar s')
  | list {items items' : List Value} (each : List.Forall₂ SameShape items items')
    : SameShape (.list items) (.list items')
  | table {entries entries' : Table}
    (each : ∀ key, Option.Rel SameShape (entries.lookup key) (entries'.lookup key))
    : SameShape (.table entries) (.table entries')

theorem SameShape.kind_eq {value value' : Value} (h : SameShape value value')
    : value.kind = value'.kind := by
  cases h with
  | scalar kind => exact kind
  | list each => rfl
  | table each => rfl

/-- The steps that lead to a part of a value: keys of tables and indexes of lists. -/
abbrev Address := List (String ⊕ Nat)

/-- The part that one step leads to. -/
def part? (value : Value) : String ⊕ Nat → Option Value
  | .inl key => value.member? key
  | .inr index =>
    match value with
    | list items => items[index]?
    | _ => none

/-- The part of a value at an address. -/
def at? (value : Value) (address : Address) : Option Value :=
  address.foldlM part? value

theorem at?_concat (value : Value) (address : Address) (step : String ⊕ Nat)
    : value.at? (address ++ [step]) = (value.at? address).bind fun part => part.part? step := by
  simp [at?, List.foldlM_append]

end Value

open Value

/-- Parts of two values that stand at one address and have the same shape. -/
structure Twins (whole whole' : Value) (address : Address) (part part' : Value) : Prop where
  sameShape : SameShape part part'
  here : whole.at? address = some part
  here' : whole'.at? address = some part'

namespace Twins

variable {whole whole' value value' : Value} {address : Address}

theorem refl (same : SameShape whole whole') : Twins whole whole' [] whole whole' :=
  ⟨same, rfl, rfl⟩

/-- What a step leads to in twins are twins. -/
theorem part {part part' : Value} (h : Twins whole whole' address value value')
    (step : String ⊕ Nat) (found : value.part? step = some part)
    (found' : value'.part? step = some part') (same : SameShape part part')
    : Twins whole whole' (address ++ [step]) part part' := by
  refine ⟨same, ?_, ?_⟩
  · rw [at?_concat, h.here, Option.bind_some, found]
  · rw [at?_concat, h.here', Option.bind_some, found']

/-- Twins have twins under a key, or nothing. -/
theorem member (h : Twins whole whole' address value value') (key : String)
    : Option.Rel (Twins whole whole' (address ++ [.inl key])) (value.member? key)
        (value'.member? key) := by
  cases h.sameShape with
  | scalar kind => exact .none
  | list each => exact .none
  | @table entries entries' each =>
      have here := each key
      generalize found : entries.lookup key = entry at here
      generalize found' : entries'.lookup key = entry' at here
      simp only [member?, found, found']
      cases here with
      | none => exact .none
      | some same => exact .some (h.part (.inl key) found found' same)

/-- The items of twin lists are twins in pairs. -/
theorem item {items items' : List Value} {item item' : Value} {index : Nat}
    (h : Twins whole whole' address (.list items) (.list items'))
    (here : items[index]? = some item) (here' : items'[index]? = some item')
    : Twins whole whole' (address ++ [.inr index]) item item' := by
  cases h.sameShape with
  | list each =>
      obtain ⟨bound, rfl⟩ := List.getElem?_eq_some_iff.1 here
      obtain ⟨bound', rfl⟩ := List.getElem?_eq_some_iff.1 here'
      exact h.part (.inr index) here here' (each.get bound bound')

/-- Going down the same keys from twins leads to twins, or to nothing, by induction on the keys. -/
theorem members (h : Twins whole whole' address value value') (keys : List String)
    : Option.Rel (Twins whole whole' (address ++ keys.map .inl)) (keys.foldlM member? value)
        (keys.foldlM member? value') := by
  induction keys generalizing address value value' with
  | nil => exact .some (by simpa using h)
  | cons key keys ih =>
      have first := h.member key
      rw [List.foldlM_cons, List.foldlM_cons, List.map_cons, List.append_cons]
      generalize value.member? key = next at first
      generalize value'.member? key = next' at first
      cases first with
      | none => exact .none
      | some twins => exact ih twins

end Twins

end Stencil
