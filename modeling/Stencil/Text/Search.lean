/-!
Cutting a text at a mark. The main statement: a cut loses nothing but the mark.
-/

namespace Stencil.Text

/-- Walks to the first place where `mark` starts, with the passed characters in reverse. -/
def cutAtFrom (mark : List Char) (passed : List Char)
    : List Char → Option (List Char × List Char)
  | [] => none
  | c :: rest =>
    if mark.isPrefixOf (c :: rest) then some (passed.reverse, (c :: rest).drop mark.length)
    else cutAtFrom mark (c :: passed) rest

/-- The text before and the text after the first occurrence of a mark, if there is one. -/
def cutAt? (mark text : List Char) : Option (List Char × List Char) :=
  cutAtFrom mark [] text

/-- A walk that finds the mark has passed what it returns first. -/
theorem eq_of_cutAtFrom {mark passed text before after : List Char}
    (h : cutAtFrom mark passed text = some (before, after))
    : passed.reverse ++ text = before ++ mark ++ after := by
  induction text generalizing passed with
  | nil => simp [cutAtFrom] at h
  | cons c rest ih =>
    unfold cutAtFrom at h
    split at h
    · rename_i isPrefix
      obtain ⟨tail, eq⟩ := List.isPrefixOf_iff_prefix.1 isPrefix
      simp only [Option.some.injEq, Prod.mk.injEq] at h
      obtain ⟨rfl, rfl⟩ := h
      simp [← eq]
    · simpa using ih h

/-- A text is what stands before its first mark, the mark and what stands after it. -/
theorem eq_of_cutAt? {mark text before after : List Char}
    (h : cutAt? mark text = some (before, after))
    : text = before ++ mark ++ after := by
  simpa using eq_of_cutAtFrom h

/-- What stands after a mark is shorter than the text by at least the mark. -/
theorem length_of_cutAt? {mark text before after : List Char}
    (h : cutAt? mark text = some (before, after))
    : after.length + mark.length ≤ text.length := by
  simp [eq_of_cutAt? h]
  omega

/-- The pieces of a text between the occurrences of a separating character. -/
def splitOn (separator : Char) : List Char → List (List Char)
  | [] => [[]]
  | c :: rest =>
    if c = separator then [] :: splitOn separator rest
    else match splitOn separator rest with
      | [] => [[c]]
      | piece :: pieces => (c :: piece) :: pieces

/-- Pieces with a separator between each two of them. -/
def joinWith (separator : List Char) : List (List Char) → List Char
  | [] => []
  | [piece] => piece
  | piece :: pieces => piece ++ separator ++ joinWith separator pieces

/-- There is always at least one piece. -/
theorem splitOn_ne_nil (separator : Char) (text : List Char)
    : splitOn separator text ≠ [] := by
  cases text with
  | nil => simp [splitOn]
  | cons c rest =>
    unfold splitOn
    split
    · simp
    · split <;> simp

/-- Splitting and joining with the same separator gives the text back. -/
theorem joinWith_splitOn (separator : Char) (text : List Char)
    : joinWith [separator] (splitOn separator text) = text := by
  induction text with
  | nil => rfl
  | cons c rest ih =>
    unfold splitOn
    have nonempty := splitOn_ne_nil separator rest
    split
    · rename_i eq
      cases pieces : splitOn separator rest with
      | nil => exact absurd pieces nonempty
      | cons piece more =>
        rw [pieces] at ih
        simp [joinWith, ih, eq]
    · cases pieces : splitOn separator rest with
      | nil => exact absurd pieces nonempty
      | cons piece more =>
        rw [pieces] at ih
        cases more with
        | nil => simpa [joinWith] using ih
        | cons next others => simpa [joinWith] using ih

end Stencil.Text
