import Stencil.Text.Search

/-! The first place of a mark in a text is what cutting finds. It is unique, and it does not
depend on what follows the mark.
-/

namespace Stencil.Text

/-- `before` and `after` are the two sides of the first place where `mark` stands in `text`. -/
structure FirstPlace (mark text before after : List Char) : Prop where
  whole : text = before ++ mark ++ after
  first : ∀ left right, text = left ++ mark ++ right → before.length ≤ left.length

/-- A text has at most one first place of a mark, by comparing the lengths of the sides. -/
theorem FirstPlace.unique {mark text before after left right : List Char}
    (h : FirstPlace mark text before after) (other : FirstPlace mark text left right)
    : before = left ∧ after = right := by
  have sameLength : before.length = left.length :=
    Nat.le_antisymm (h.first _ _ other.whole) (other.first _ _ h.whole)
  have same := h.whole.symm.trans other.whole
  simp only [List.append_assoc] at same
  obtain ⟨rfl, rest⟩ := List.append_inj same sameLength
  exact ⟨rfl, List.append_cancel_left rest⟩

/-- The first place of a mark stays the first one whatever follows the mark.
An earlier place would end before the mark does, and so it would stand in both texts.
-/
theorem FirstPlace.replaceAfter {mark text before after : List Char}
    (h : FirstPlace mark text before after) (other : List Char)
    : FirstPlace mark (before ++ mark ++ other) before other := by
  refine ⟨rfl, ?_⟩
  intro left right same
  by_cases early : before.length ≤ left.length
  · exact early
  have leftEnds : (left ++ mark).length ≤ (before ++ mark).length := by
    simp only [List.length_append]
    omega
  have shared : left ++ mark <+: before ++ mark :=
    List.prefix_of_prefix_length_le ⟨right, same.symm⟩ ⟨other, rfl⟩ leftEnds
  obtain ⟨gap, eq⟩ := shared
  have inText : text = left ++ mark ++ (gap ++ after) := by
    rw [h.whole, ← eq, List.append_assoc (left ++ mark)]
  exact h.first left _ inText

/-- The walk only puts what it has passed in front of the cut. -/
theorem cutAtFrom_eq_map (mark passed text : List Char)
    : cutAtFrom mark passed text
      = (cutAt? mark text).map fun cut => (passed.reverse ++ cut.1, cut.2) := by
  unfold cutAt?
  induction text generalizing passed with
  | nil => simp [cutAtFrom]
  | cons c rest ih =>
      unfold cutAtFrom
      split
      · simp
      · rw [ih (c :: passed), ih [c]]
        simp [Function.comp_def]

/-- A cut of a nonempty text is at its head or within its rest. -/
theorem cutAt?_cons (mark : List Char) (c : Char) (rest : List Char)
    : cutAt? mark (c :: rest)
      = if mark.isPrefixOf (c :: rest) then some ([], (c :: rest).drop mark.length)
        else (cutAt? mark rest).map fun cut => (c :: cut.1, cut.2) := by
  rw [cutAt?, cutAtFrom, cutAtFrom_eq_map mark [c] rest]
  simp

/-- A cut is at the first place of the mark, by induction along the walk. -/
theorem firstPlace_of_cutAt? {mark text before after : List Char}
    (h : cutAt? mark text = some (before, after))
    : FirstPlace mark text before after := by
  refine ⟨eq_of_cutAt? h, ?_⟩
  induction text generalizing before with
  | nil => simp [cutAt?, cutAtFrom] at h
  | cons c rest ih =>
      intro left right same
      rw [cutAt?_cons] at h
      split at h
      · cases h
        exact Nat.zero_le _
      · rename_i notHere
        obtain ⟨⟨later, rest'⟩, found, eq⟩ := Option.map_eq_some_iff.1 h
        cases eq
        cases left with
        | nil => exact (notHere (List.isPrefixOf_iff_prefix.2 ⟨right, same.symm⟩)).elim
        | cons d left =>
            simp only [List.cons_append, List.cons.injEq] at same
            simpa using ih found left right same.2

/-- Where no cut is found the mark does not stand, by induction along the walk. -/
theorem not_infix_of_cutAt?_eq_none {mark text : List Char} (nonempty : mark ≠ [])
    (h : cutAt? mark text = none)
    : ¬ mark <:+: text := by
  induction text with
  | nil => simpa using nonempty
  | cons c rest ih =>
      rw [cutAt?_cons] at h
      split at h
      · simp at h
      · rename_i notHere
        rw [List.infix_cons_iff]
        rintro (here | later)
        · exact notHere (List.isPrefixOf_iff_prefix.2 here)
        · exact ih (Option.map_eq_none_iff.1 h) later

/-- Cutting a text finds exactly the first place of the mark. -/
theorem cutAt?_eq_some_iff {mark text before after : List Char} (nonempty : mark ≠ [])
    : cutAt? mark text = some (before, after) ↔ FirstPlace mark text before after := by
  refine ⟨firstPlace_of_cutAt?, ?_⟩
  intro place
  cases found : cutAt? mark text with
  | none =>
      have absent := not_infix_of_cutAt?_eq_none nonempty found
      exact (absent ⟨before, after, place.whole.symm⟩).elim
  | some cut =>
      obtain ⟨rfl, rfl⟩ := (firstPlace_of_cutAt? found).unique place
      rfl

/-- Cutting a text fails exactly where the mark does not stand in it. -/
theorem cutAt?_eq_none_iff {mark text : List Char} (nonempty : mark ≠ [])
    : cutAt? mark text = none ↔ ¬ mark <:+: text := by
  refine ⟨not_infix_of_cutAt?_eq_none nonempty, ?_⟩
  intro absent
  cases found : cutAt? mark text with
  | none => rfl
  | some cut =>
      have whole := (firstPlace_of_cutAt? found).whole
      exact (absent ⟨cut.1, cut.2, whole.symm⟩).elim

/-- A mark is at its first place behind a text without its first character. -/
theorem firstPlace_of_not_mem {c : Char} {more before : List Char} (absent : c ∉ before)
    (after : List Char)
    : FirstPlace (c :: more) (before ++ (c :: more) ++ after) before after := by
  refine ⟨rfl, ?_⟩
  intro left right same
  by_cases early : before.length ≤ left.length
  · exact early
  have inBefore : before[left.length]? = some c := by
    have atMark := congrArg (·[left.length]?) same
    simp only [List.append_assoc] at atMark
    rw [List.getElem?_append_left (by omega)] at atMark
    simpa using atMark
  exact (absent (List.mem_of_getElem? inBefore)).elim

/-- A character behind a text makes no pair unless the text ends with the same character. -/
theorem not_infix_pair_append {c d : Char} {text : List Char} (absent : ¬ [c, c] <:+: text)
    (apart : d = c → text.getLast? ≠ some c)
    : ¬ [c, c] <:+: text ++ [d] := by
  rw [List.infix_concat_iff]
  rintro (⟨left, eq⟩ | earlier)
  · have split : (left ++ [c]) ++ [c] = text ++ [d] := by simpa using eq
    obtain ⟨rfl, same⟩ := List.append_inj' split rfl
    cases same
    exact apart rfl (by simp)
  · exact absent earlier

/-- A doubled character is at its first place behind a text in which it is not doubled even
when the character is put behind it.
-/
theorem firstPlace_pair {c : Char} {before : List Char}
    (absent : ¬ [c, c] <:+: before ++ [c]) (after : List Char)
    : FirstPlace [c, c] (before ++ [c, c] ++ after) before after := by
  refine ⟨rfl, ?_⟩
  intro left right same
  by_cases early : before.length ≤ left.length
  · exact early
  have leftEnds : (left ++ [c, c]).length ≤ (before ++ [c]).length := by
    simp only [List.length_append, List.length_cons, List.length_nil]
    omega
  have whole : before ++ [c] ++ (c :: after) = left ++ [c, c] ++ right := by
    simpa using same
  obtain ⟨gap, eq⟩ : left ++ [c, c] <+: before ++ [c] :=
    List.prefix_of_prefix_length_le ⟨right, whole.symm⟩ ⟨c :: after, rfl⟩ leftEnds
  exact (absent ⟨left, gap, eq⟩).elim

/-- A doubled character in a text stands in its second part, if it does not stand in the first
part and that does not end with the character.
-/
theorem exists_left_of_pair {c : Char} {lead text left right : List Char}
    (absent : ¬ [c, c] <:+: lead) (apart : lead.getLast? ≠ some c)
    (same : lead ++ text = left ++ [c, c] ++ right)
    : ∃ between, left = lead ++ between ∧ text = between ++ [c, c] ++ right := by
  rw [List.append_assoc, List.append_eq_append_iff] at same
  rcases same with ⟨between, rfl, eq⟩ | ⟨between, rfl, eq⟩
  · exact ⟨between, rfl, by rw [eq, List.append_assoc]⟩
  · match between with
    | [] => exact ⟨[], by simp, by simpa using eq.symm⟩
    | [d] =>
        obtain ⟨rfl, _⟩ := List.cons.inj eq
        exact (apart (by simp)).elim
    | d :: e :: more =>
        obtain ⟨rfl, later⟩ := List.cons.inj eq
        obtain ⟨rfl, _⟩ := List.cons.inj later
        exact (absent ⟨left, more, by simp⟩).elim

/-- What stands before a text does not change the place of a doubled character. -/
theorem FirstPlace.prepend {c : Char} {lead text before after : List Char}
    (h : FirstPlace [c, c] text before after) (absent : ¬ [c, c] <:+: lead)
    (apart : lead.getLast? ≠ some c)
    : FirstPlace [c, c] (lead ++ text) (lead ++ before) after := by
  refine ⟨by rw [h.whole]; simp, ?_⟩
  intro left right same
  obtain ⟨between, rfl, eq⟩ := exists_left_of_pair absent apart same
  have least := h.first between right eq
  simpa using least

theorem not_infix_pair_append_left {c : Char} {lead text : List Char}
    (absent : ¬ [c, c] <:+: lead) (apart : lead.getLast? ≠ some c) (absent' : ¬ [c, c] <:+: text)
    : ¬ [c, c] <:+: lead ++ text := by
  rintro ⟨left, right, same⟩
  obtain ⟨between, _, eq⟩ := exists_left_of_pair absent apart same.symm
  exact absent' ⟨between, right, eq.symm⟩

end Stencil.Text
