import Mathlib.Data.Nat.Digits.Lemmas
import Stencil.Plain

/-! The members of a record. Setting a member keeps the order of enumeration: keys that are
indexes come first, in ascending order, and every key has one member. Members can be set in any
order, but for two new keys that are both no indexes.
-/

namespace Stencil.Plain

-----------------------------------------------------------------------------------------
-- Keys that are indexes
-----------------------------------------------------------------------------------------

/-- The number that a decimal digit stands for. -/
def digitOf (c : Char) : Nat := c.toNat - '0'.toNat

/-- A text of digits that has no needless zero in front. -/
structure IsIndexText (text : List Char) (index : Nat) : Prop where
  nonempty : text ≠ []
  digits : ∀ c ∈ text, c.isDigit = true
  lead : text = ['0'] ∨ text.head? ≠ some '0'
  value : index = Nat.ofDigits 10 (text.reverse.map digitOf)

theorem digitOf_lt {c : Char} (h : c.isDigit = true) : digitOf c < 10 := by
  have range := Char.isDigit_iff_toNat.1 h
  have zero : '0'.toNat = 48 := rfl
  have nine : '9'.toNat = 57 := rfl
  simp only [digitOf]
  omega

theorem digitOf_inj {c d : Char} (h : c.isDigit = true) (h' : d.isDigit = true)
    (same : digitOf c = digitOf d)
    : c = d := by
  have range := Char.isDigit_iff_toNat.1 h
  have range' := Char.isDigit_iff_toNat.1 h'
  simp only [digitOf] at same
  exact Char.toNat_inj.1 (by omega)

theorem eq_of_map_digitOf {text other : List Char} (digits : ∀ c ∈ text, c.isDigit = true)
    (digits' : ∀ c ∈ other, c.isDigit = true) (same : text.map digitOf = other.map digitOf)
    : text = other := by
  induction text generalizing other with
  | nil => exact (List.map_eq_nil_iff.1 same.symm).symm
  | cons c text ih =>
      obtain ⟨d, rest, rfl, first, later⟩ := List.map_eq_cons_iff.1 same.symm
      rw [List.forall_mem_cons] at digits digits'
      rw [digitOf_inj digits.1 digits'.1 first.symm, ih digits.2 digits'.2 later.symm]

/-- Reading digits from the left gives the number that they are the digits of. -/
theorem foldl_digits (text : List Char)
    : text.foldl (fun n c => 10 * n + (c.toNat - '0'.toNat)) 0
      = Nat.ofDigits 10 (text.reverse.map digitOf) := by
  rw [Nat.ofDigits_eq_foldr, List.foldr_map, List.foldr_reverse]
  congr 1
  funext n c
  simp [digitOf, Nat.add_comm]

/-- The text of a key that is an index. -/
theorem isIndexText_of_indexOf? {key : String} {index : Nat} (h : indexOf? key = some index)
    : IsIndexText key.toList index := by
  unfold indexOf? at h
  split at h
  · cases h
  · rename_i zero
    cases h
    rw [zero]
    exact ⟨by simp, by simp, .inl rfl, by simp [digitOf]⟩
  · rename_i first rest _ eq
    simp only [Option.ite_none_left_eq_some, Option.ite_none_right_eq_some, Option.some.injEq,
      Bool.or_eq_true, beq_iff_eq, Bool.not_eq_true', List.all_eq_false, not_or,
      decide_eq_true_eq] at h
    obtain ⟨⟨⟨lead, digits⟩, _⟩, _, rfl⟩ := h
    rw [eq]
    refine ⟨by simp, ?_, .inr (by simpa using lead), foldl_digits _⟩
    simpa using digits

/-- Without needless zeros in front, the digits are those of their number. -/
theorem IsIndexText.digits_eq {text : List Char} {index : Nat} (h : IsIndexText text index)
    (lead : text.head? ≠ some '0')
    : Nat.digits 10 index = text.reverse.map digitOf := by
  rw [h.value]
  refine Nat.digits_ofDigits 10 (by decide) _ ?_ ?_
  · simp only [List.mem_map, List.mem_reverse]
    rintro _ ⟨c, member, rfl⟩
    exact digitOf_lt (h.digits c member)
  · intro _ zero
    rw [List.getLast_map, List.getLast_reverse] at zero
    have first := h.digits _ (List.head_mem h.nonempty)
    have isZero : text.head h.nonempty = '0' := digitOf_inj first (by decide) zero
    exact lead (by rw [List.head?_eq_some_head h.nonempty, isZero])

/-- The text of an index is determined by the index. -/
theorem IsIndexText.unique {text other : List Char} {index : Nat} (h : IsIndexText text index)
    (h' : IsIndexText other index)
    : text = other := by
  have notZero {text : List Char} (h : IsIndexText text index) (lead : text.head? ≠ some '0')
      : index ≠ 0 := by
    rintro rfl
    have none := h.digits_eq lead
    rw [Nat.digits_zero] at none
    exact h.nonempty (by simpa using none.symm)
  have zero (h : IsIndexText ['0'] index) : index = 0 := by
    rw [h.value]
    simp [digitOf]
  rcases h.lead with rfl | lead <;> rcases h'.lead with rfl | lead'
  · rfl
  · exact (notZero h' lead' (zero h)).elim
  · exact (notZero h lead (zero h')).elim
  · have same := (h.digits_eq lead).symm.trans (h'.digits_eq lead')
    refine List.reverse_inj.1 (eq_of_map_digitOf ?_ ?_ same)
    · simpa using h.digits
    · simpa using h'.digits

theorem indexOf?_inj {key other : String} {index : Nat} (h : indexOf? key = some index)
    (h' : indexOf? other = some index)
    : key = other :=
  String.toList_inj.1 ((isIndexText_of_indexOf? h).unique (isIndexText_of_indexOf? h'))

-----------------------------------------------------------------------------------------
-- The order of keys
-----------------------------------------------------------------------------------------

theorem precedes_iff {key other : String}
    : precedes key other = true
      ↔ ∃ index,
          indexOf? key = some index ∧ ∀ index', indexOf? other = some index' → index < index' := by
  unfold precedes
  cases indexOf? key with
  | none => simp
  | some index => cases indexOf? other <;> simp

theorem precedes_trans {first middle last : String} (h : precedes first middle = true)
    (h' : precedes middle last = true)
    : precedes first last = true := by
  obtain ⟨index, isFirst, before⟩ := precedes_iff.1 h
  obtain ⟨index', isMiddle, before'⟩ := precedes_iff.1 h'
  exact precedes_iff.2 ⟨index, isFirst, fun index'' isLast =>
    Nat.lt_trans (before index' isMiddle) (before' index'' isLast)⟩

theorem precedes_asymm {key other : String} (h : precedes key other = true)
    : precedes other key = false := by
  rw [← Bool.not_eq_true]
  intro h'
  obtain ⟨index, isIndex, before⟩ := precedes_iff.1 (precedes_trans h h')
  exact Nat.lt_irrefl index (before index isIndex)

/-- An index stands before or behind any other key. -/
theorem precedes_eq_not {key other : String} (isIndex : (indexOf? key).isSome)
    (distinct : key ≠ other)
    : precedes other key = !precedes key other := by
  obtain ⟨index, eq⟩ := Option.isSome_iff_exists.1 isIndex
  cases eq' : indexOf? other with
  | none => simp [precedes, eq, eq']
  | some index' =>
      have differ : index ≠ index' := by
        rintro rfl
        exact distinct (indexOf?_inj eq eq')
      simp only [precedes, eq, eq', Bool.eq_not, ne_eq, decide_eq_decide]
      omega

-----------------------------------------------------------------------------------------
-- Setting members
-----------------------------------------------------------------------------------------

variable {members : List (String × Plain)} {key other name : String} {value item : Plain}

theorem lookup_member (key name : String) (value : Plain) (rest : List (String × Plain))
    : List.lookup name ((key, value) :: rest)
      = if name = key then some value else rest.lookup name := by
  rw [List.lookup_cons]
  by_cases same : name = key
  · simp [same]
  · rw [if_neg same, beq_eq_false_iff_ne.2 same]

theorem isSome_lookup {members : List (String × Plain)} {name : String}
    : (members.lookup name).isSome ↔ name ∈ members.map Prod.fst := by
  rw [List.lookup_isSome_iff]
  simp only [List.mem_map, beq_iff_eq, @eq_comm _ name]

theorem lookup_eq_none_iff {members : List (String × Plain)} {name : String}
    : members.lookup name = none ↔ name ∉ members.map Prod.fst := by
  rw [← isSome_lookup, Option.not_isSome_iff_eq_none]

theorem lookup_eq_some_iff {members : List (String × Plain)}
    (distinct : (members.map Prod.fst).Nodup) {name : String} {item : Plain}
    : members.lookup name = some item ↔ (name, item) ∈ members := by
  induction members with
  | nil => simp
  | cons entry rest ih =>
      obtain ⟨key, value⟩ := entry
      obtain ⟨absent, distinctRest⟩ := List.nodup_cons.1 distinct
      rw [lookup_member, List.mem_cons, Prod.mk.injEq]
      by_cases same : name = key
      · subst same
        have notBehind : (name, item) ∉ rest :=
          fun member => absent (List.mem_map.2 ⟨_, member, rfl⟩)
        simp [notBehind, eq_comm]
      · simp [same, ih distinctRest]

/-- After a member has been set it has its new value, and all others are as before. -/
theorem lookup_put (members : List (String × Plain)) (key name : String) (value : Plain)
    : (put key value members).lookup name
      = if name = key then some value else members.lookup name := by
  induction members with
  | nil => rw [put, lookup_member]
  | cons entry rest ih =>
      obtain ⟨first, present⟩ := entry
      rw [put]
      split
      · rename_i here
        rw [lookup_member, lookup_member, here]
        split <;> rfl
      · rename_i differs
        split
        · rw [lookup_member]
        · rw [lookup_member, lookup_member, ih]
          by_cases same : name = key
          · have differ : name ≠ first := fun here => differs (here.symm.trans same)
            rw [if_neg differ, if_pos same, if_pos same]
          · rw [if_neg same, if_neg same]

/-- The members behind a set one are that member and those of before. -/
theorem mem_put {entry : String × Plain} (h : entry ∈ put key value members)
    : entry = (key, value) ∨ entry ∈ members := by
  induction members with
  | nil => exact .inl (List.mem_singleton.1 h)
  | cons first rest ih =>
      rw [put] at h
      split at h
      · exact (List.mem_cons.1 h).imp_right (List.mem_cons_of_mem _)
      · split at h
        · exact List.mem_cons.1 h
        · rcases List.mem_cons.1 h with rfl | later
          · exact .inr (List.mem_cons_self ..)
          · exact (ih later).imp_right (List.mem_cons_of_mem _)

theorem mem_keys_put
    : name ∈ (put key value members).map Prod.fst ↔ name = key ∨ name ∈ members.map Prod.fst := by
  induction members with
  | nil => simp [put]
  | cons entry rest ih =>
      obtain ⟨first, present⟩ := entry
      rw [put]
      split
      · rename_i here
        simp [here]
      · split
        · simp
        · simp only [List.map_cons, List.mem_cons, ih]
          exact or_left_comm

/-- A member that is set twice has the last value. -/
theorem put_put (members : List (String × Plain)) (key : String) (value item : Plain)
    : put key value (put key item members) = put key value members := by
  induction members with
  | nil => simp [put]
  | cons entry rest ih =>
      obtain ⟨first, present⟩ := entry
      by_cases here : first = key
      · simp [put, here]
      · by_cases before : precedes key first = true
        · simp [put, here, before]
        · simp [put, here, before, ih]

/-- Two members can be set in either order, if the key of one is an index or there already. By
induction on the members; where both keys are set at one place, the index tells which is first.
-/
theorem put_comm (distinct : key ≠ other)
    (placed : (indexOf? key).isSome ∨ key ∈ members.map Prod.fst)
    : put key value (put other item members) = put other item (put key value members) := by
  induction members with
  | nil =>
      have isIndex : (indexOf? key).isSome := by simpa using placed
      have either := precedes_eq_not isIndex distinct
      cases before : precedes key other <;>
        simp [put, distinct, distinct.symm, before, either]
  | cons entry rest ih =>
      obtain ⟨first, present⟩ := entry
      by_cases here : first = key
      · subst here
        by_cases before : precedes other first = true
        · simp [put, distinct, distinct.symm, before, precedes_asymm before]
        · simp [put, distinct, before]
      by_cases there : first = other
      · subst there
        by_cases before : precedes key first = true
        · simp [put, here, before, precedes_asymm before, distinct]
        · simp [put, here, before]
      have placedLater : (indexOf? key).isSome ∨ key ∈ rest.map Prod.fst := by
        simpa [Ne.symm here] using placed
      by_cases before : precedes key first = true
      · by_cases before' : precedes other first = true
        · -- Both stand in front of the first entry.
          obtain ⟨index, isIndex, _⟩ := precedes_iff.1 before
          have either := precedes_eq_not (by simp [isIndex]) distinct
          cases order : precedes key other <;>
            simp [put, here, there, before, before', distinct, distinct.symm, order, either]
        · have behind : precedes other key = false := by
            rw [← Bool.not_eq_true]
            exact fun order => before' (precedes_trans order before)
          simp [put, here, there, before, before', distinct, behind]
      · by_cases before' : precedes other first = true
        · have behind : precedes key other = false := by
            rw [← Bool.not_eq_true]
            exact fun order => before (precedes_trans order before')
          simp [put, here, there, before, before', distinct.symm, behind]
        · simp [put, here, there, before, before', ih placedLater]

-----------------------------------------------------------------------------------------
-- The order of enumeration
-----------------------------------------------------------------------------------------

/-- Members in the order in which a record enumerates them: no key comes twice, and none behind a
key that it precedes.
-/
def Enumerated (members : List (String × Plain)) : Prop :=
  members.Pairwise fun first later => first.1 ≠ later.1 ∧ precedes later.1 first.1 = false

theorem Enumerated.nodup (h : Enumerated members) : (members.map Prod.fst).Nodup :=
  List.pairwise_map.2 (h.imp fun differ => differ.1)

/-- A member is set at its place, by induction on the members. -/
theorem Enumerated.put (h : Enumerated members) (key : String) (value : Plain)
    : Enumerated (put key value members) := by
  induction members with
  | nil => exact List.pairwise_singleton _ _
  | cons entry rest ih =>
      obtain ⟨first, present⟩ := entry
      obtain ⟨apart, later⟩ := List.pairwise_cons.1 h
      rw [Plain.put]
      split
      · rename_i here
        subst here
        exact List.pairwise_cons.2 ⟨apart, later⟩
      · rename_i differs
        split
        · rename_i before
          refine List.pairwise_cons.2 ⟨fun entry member => ?_, h⟩
          rcases List.mem_cons.1 member with rfl | member
          · exact ⟨Ne.symm differs, precedes_asymm before⟩
          · have behind := (apart entry member).2
            refine ⟨?_, ?_⟩
            · rintro rfl
              rw [before] at behind
              cases behind
            · rw [← Bool.not_eq_true] at behind ⊢
              exact fun order => behind (precedes_trans order before)
        · rename_i notBefore
          refine List.pairwise_cons.2 ⟨fun entry member => ?_, ih later⟩
          rcases mem_put member with rfl | member
          · exact ⟨differs, Bool.not_eq_true _ ▸ notBefore⟩
          · exact apart entry member

/-- The keys that are no indexes. -/
def names (members : List (String × Plain)) : List String :=
  (members.map Prod.fst).filter fun key => (indexOf? key).isNone

theorem names_cons (key : String) (value : Plain) (rest : List (String × Plain))
    : names ((key, value) :: rest)
      = if (indexOf? key).isNone then key :: names rest else names rest := by
  rw [names, List.map_cons, List.filter_cons, names]

/-- An index that is set leaves the names as they are. -/
theorem names_put_of_isSome (isIndex : (indexOf? key).isSome)
    : names (put key value members) = names members := by
  have notName : (indexOf? key).isNone = false := by simp [Option.isNone_eq_false_iff, isIndex]
  induction members with
  | nil => simp [put, names_cons, notName]
  | cons entry rest ih =>
      obtain ⟨first, present⟩ := entry
      rw [put]
      split
      · rename_i here
        simp [names_cons, here]
      · split
        · simp [names_cons, notName]
        · rw [names_cons, names_cons, ih]

/-- A name that is set comes last, if it is not there yet. -/
theorem names_put_of_isNone (isName : (indexOf? key).isNone)
    : names (put key value members)
      = if key ∈ names members then names members else names members ++ [key] := by
  have never (other : String) : precedes key other = false := by
    simp [precedes, Option.isNone_iff_eq_none.1 isName]
  induction members with
  | nil => simp [put, names, isName]
  | cons entry rest ih =>
      obtain ⟨first, present⟩ := entry
      rw [put]
      split
      · rename_i here
        simp [names_cons, here, isName]
      · rename_i differs
        rw [if_neg (by simp [never]), names_cons, names_cons, ih]
        cases (indexOf? first).isNone with
        | false => rfl
        | true =>
            simp only [if_true, List.mem_cons, Ne.symm differs, false_or]
            split <;> rfl

end Stencil.Plain
