import Mathlib.Data.List.Perm.Basic
import Stencil.Proofs.Plain.Members
import Stencil.Proofs.Value.Conversion

/-! Every place in plain data, in depth-first order: the items of a list by index, the members of a
record in the order of its keys, and the entries of a map as they came.
-/

namespace Stencil.Plain

-----------------------------------------------------------------------------------------
-- The order of keys
-----------------------------------------------------------------------------------------

/-- Things under keys in the order in which a record enumerates its keys: first the keys that are
indexes, in ascending order, then all others in the order in which they came.
-/
def inKeyOrder {α : Type} (pairs : List (String × α)) : List (String × α) :=
  (pairs.filter fun pair => (indexOf? pair.1).isSome).mergeSort
      (fun first later => (indexOf? first.1).getD 0 ≤ (indexOf? later.1).getD 0)
    ++ pairs.filter fun pair => (indexOf? pair.1).isNone

/-- What comes in the order of enumeration already is not reordered. -/
theorem inKeyOrder_eq_self {α : Type} {pairs : List (String × α)}
    (enumerated : pairs.Pairwise fun first later => precedes later.1 first.1 = false)
    : inKeyOrder pairs = pairs := by
  have ascending : (pairs.filter fun pair => (indexOf? pair.1).isSome).Pairwise fun first later =>
      decide ((indexOf? first.1).getD 0 ≤ (indexOf? later.1).getD 0) = true := by
    apply List.pairwise_filter.2
    refine enumerated.imp fun {first later} notBefore isIndex isIndex' => ?_
    obtain ⟨index, here⟩ := Option.isSome_iff_exists.1 isIndex
    obtain ⟨index', there⟩ := Option.isSome_iff_exists.1 isIndex'
    simp only [precedes, here, there, decide_eq_false_iff_not] at notBefore
    simpa [here, there] using notBefore
  rw [inKeyOrder, List.mergeSort_of_pairwise ascending]
  clear ascending
  -- All indexes stand before all other keys: an index behind another key would precede it.
  induction pairs with
  | nil => rfl
  | cons pair pairs ih =>
      obtain ⟨notBefore, enumerated⟩ := List.pairwise_cons.1 enumerated
      cases index : indexOf? pair.1 with
      | some _ => simpa [index] using ih enumerated
      | none =>
          have names : ∀ later ∈ pairs, indexOf? later.1 = none := by
            intro later member
            have behind := notBefore later member
            cases isIndex : indexOf? later.1 with
            | none => rfl
            | some _ => simp [precedes, isIndex, index] at behind
          have noIndex : pairs.filter (fun pair => (indexOf? pair.1).isSome) = [] := by
            apply List.filter_eq_nil_iff.2
            intro later member
            simp [names later member]
          have rest : pairs.filter (fun pair => (indexOf? pair.1).isNone) = pairs := by
            apply List.filter_eq_self.2
            intro later member
            simp [names later member]
          simp [index, noIndex, rest]

theorem mem_inKeyOrder {α : Type} {pairs : List (String × α)} {pair : String × α}
    : pair ∈ inKeyOrder pairs ↔ pair ∈ pairs := by
  rw [inKeyOrder, List.mem_append, List.mem_mergeSort, List.mem_filter, List.mem_filter]
  cases indexOf? pair.1 <;> simp

-----------------------------------------------------------------------------------------
-- Places
-----------------------------------------------------------------------------------------

/-- One step down into data. -/
inductive Step where
  | item (index : Nat)
  | key (name : String)
  deriving DecidableEq, Repr

/-- The data path one step further down. -/
def Step.below (path : String) : Step → String
  | item index => path ++ "[" ++ toString index ++ "]"
  | key name => if path = "" then name else path ++ "." ++ name

/-- The data path of steps from the root. -/
def pathText (steps : List Step) : String :=
  steps.foldl Step.below ""

theorem pathText_concat (steps : List Step) (step : Step)
    : pathText (steps ++ [step]) = step.below (pathText steps) :=
  List.foldl_concat ..

/-- A datum with the steps that lead to it. -/
structure Placed where
  steps : List Step
  datum : Plain

/-- The text of a key of a map. -/
def keyText (key : Plain) : String :=
  key.asText.toOption.getD ""

/-- The parts of data, each with the step that leads to it. -/
def parts : Plain → List (Step × Plain)
  | list items => items.zipIdx.map fun (item, index) => (.item index, item)
  | record members => (inKeyOrder members).map fun (key, item) => (.key key, item)
  | map entries => entries.map fun (key, item) => (.key key.keyText, item)
  | _ => []

theorem sizeOf_lt_of_mem_parts {data : Plain} {part : Step × Plain} (member : part ∈ data.parts)
    : sizeOf part.2 < sizeOf data := by
  cases data with
  | list items =>
      obtain ⟨⟨item, index⟩, inItems, rfl⟩ := List.mem_map.1 member
      have := List.sizeOf_lt_of_mem (List.fst_mem_of_mem_zipIdx inItems)
      simp only [list.sizeOf_spec] at this ⊢
      omega
  | record members =>
      obtain ⟨⟨key, item⟩, inMembers, rfl⟩ := List.mem_map.1 member
      have := List.sizeOf_lt_of_mem (mem_inKeyOrder.1 inMembers)
      simp only [record.sizeOf_spec, Prod.mk.sizeOf_spec] at this ⊢
      omega
  | map entries =>
      obtain ⟨⟨key, item⟩, inEntries, rfl⟩ := List.mem_map.1 member
      have := List.sizeOf_lt_of_mem inEntries
      simp only [map.sizeOf_spec, Prod.mk.sizeOf_spec] at this ⊢
      omega
  | null | absent | boolean | number | integer | text | time | bytes | foreign => cases member

/-- All places in data that some steps lead to, depth first. -/
def placesAt (steps : List Step) (data : Plain) : List Placed :=
  ⟨steps, data⟩ :: data.parts.attach.flatMap fun part => placesAt (steps ++ [part.1.1]) part.1.2
  termination_by sizeOf data
  decreasing_by exact sizeOf_lt_of_mem_parts part.2

/-- A datum comes first, and after it all that is below its parts, part by part. -/
theorem placesAt_eq (steps : List Step) (data : Plain)
    : placesAt steps data
      = ⟨steps, data⟩ :: data.parts.flatMap fun part => placesAt (steps ++ [part.1]) part.2 := by
  conv => rhs; rw [← List.attach_map_subtype_val data.parts, List.flatMap_map]
  rw [placesAt]

/-- All places in data, depth first. -/
def places (data : Plain) : List Placed :=
  placesAt [] data

theorem mem_placesAt {steps : List Step} {data : Plain} {place : Placed}
    : place ∈ placesAt steps data
      ↔ place = ⟨steps, data⟩
        ∨ ∃ part ∈ data.parts, place ∈ placesAt (steps ++ [part.1]) part.2 := by
  rw [placesAt_eq, List.mem_cons, List.mem_flatMap]

/-- What stands in a part stands in the data, and in nothing else but the data and their parts. -/
theorem occurs_iff {part whole : Plain}
    : Occurs part whole ↔ part = whole ∨ ∃ inner ∈ whole.parts, Occurs part inner.2 := by
  constructor
  · intro occurs
    cases occurs with
    | here => exact .inl rfl
    | @item items item member inside =>
        obtain ⟨index, here⟩ := List.getElem?_of_mem member
        have inItems : (item, index) ∈ items.zipIdx := List.mem_zipIdx_iff_getElem?.2 here
        exact .inr ⟨_, List.mem_map_of_mem inItems, inside⟩
    | member member inside =>
        exact .inr ⟨_, List.mem_map_of_mem (mem_inKeyOrder.2 member), inside⟩
    | entry member inside => exact .inr ⟨_, List.mem_map_of_mem member, inside⟩
  · intro h
    rcases h with rfl | ⟨inner, member, inside⟩
    · exact .here
    · cases whole with
      | list items =>
          obtain ⟨⟨item, index⟩, inItems, rfl⟩ := List.mem_map.1 member
          exact .item (List.fst_mem_of_mem_zipIdx inItems) inside
      | record members =>
          obtain ⟨⟨key, item⟩, inMembers, rfl⟩ := List.mem_map.1 member
          exact .member (mem_inKeyOrder.1 inMembers) inside
      | map entries =>
          obtain ⟨⟨key, item⟩, inEntries, rfl⟩ := List.mem_map.1 member
          exact .entry inEntries inside
      | null | absent | boolean | number | integer | text | time | bytes | foreign => cases member

/-- What stands in data are the data of their places. By recursion over the data. -/
theorem exists_placesAt_iff {part : Plain} (steps : List Step) (whole : Plain)
    : (∃ place ∈ placesAt steps whole, place.datum = part) ↔ Occurs part whole := by
  rw [occurs_iff]
  constructor
  · intro h
    obtain ⟨place, member, rfl⟩ := h
    rcases mem_placesAt.1 member with rfl | ⟨inner, inParts, member⟩
    · exact .inl rfl
    · exact .inr ⟨inner, inParts, (exists_placesAt_iff _ inner.2).1 ⟨place, member, rfl⟩⟩
  · intro h
    rcases h with rfl | ⟨inner, inParts, occurs⟩
    · exact ⟨⟨steps, part⟩, mem_placesAt.2 (.inl rfl), rfl⟩
    · obtain ⟨place, member, same⟩ := (exists_placesAt_iff (steps ++ [inner.1]) inner.2).2 occurs
      exact ⟨place, mem_placesAt.2 (.inr ⟨inner, inParts, member⟩), same⟩
  termination_by sizeOf whole
  decreasing_by all_goals exact sizeOf_lt_of_mem_parts inParts

end Stencil.Plain
