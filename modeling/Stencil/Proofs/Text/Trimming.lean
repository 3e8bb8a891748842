import Stencil.Text

/-! Trimming takes away blanks only, leaves none at the ends, and gives back any unpadded text
that was put between blanks.
-/

namespace Stencil.Text

/-- The text holds nothing but blanks. -/
def Blanks (text : List Char) : Prop := ∀ c ∈ text, isBlank c = true

/-- The text neither starts nor ends with a blank. -/
structure Unpadded (text : List Char) : Prop where
  start : ∀ c rest, text = c :: rest → isBlank c = false
  stop : ∀ rest c, text = rest ++ [c] → isBlank c = false

/-- The blank test only looks at whether a character is one, so a reversed text keeps it. -/
theorem Blanks.reverse {text : List Char} (h : Blanks text) : Blanks text.reverse :=
  fun c member => h c (List.mem_reverse.1 member)

theorem trimStart_eq_self {text : List Char}
    (h : ∀ c rest, text = c :: rest → isBlank c = false)
    : trimStart text = text := by
  cases text with
  | nil => rfl
  | cons c rest => exact List.dropWhile_cons_of_neg (by simp [h c rest rfl])

/-- Nothing is trimmed before a text that has no blanks. -/
theorem trimStart_solid {text : List Char} (nonempty : text ≠ [])
    (solid : ∀ c ∈ text, isBlank c = false) (rest : List Char)
    : trimStart (text ++ rest) = text ++ rest := by
  cases text with
  | nil => exact absurd rfl nonempty
  | cons c more => exact List.dropWhile_cons_of_neg (by simp [solid c (by simp)])

theorem unpadded_of_solid {text : List Char} (solid : ∀ c ∈ text, isBlank c = false)
    : Unpadded text :=
  ⟨fun c _ eq => solid c (by simp [eq]), fun _ c eq => solid c (by simp [eq])⟩

theorem trimStart_append {blanks : List Char} (h : Blanks blanks) (text : List Char)
    : trimStart (blanks ++ text) = trimStart text :=
  List.dropWhile_append_of_pos h

theorem exists_trimStart (text : List Char)
    : ∃ blanks, Blanks blanks ∧ text = blanks ++ trimStart text :=
  ⟨text.takeWhile isBlank, List.all_eq_true.1 List.all_takeWhile,
    List.takeWhile_append_dropWhile.symm⟩

theorem trimEnd_eq (text : List Char) : trimEnd text = (trimStart text.reverse).reverse :=
  rfl

theorem trimEnd_append {blanks : List Char} (h : Blanks blanks) (text : List Char)
    : trimEnd (text ++ blanks) = trimEnd text := by
  rw [trimEnd_eq, trimEnd_eq, List.reverse_append, trimStart_append h.reverse]

theorem trimEnd_eq_self {text : List Char}
    (h : ∀ rest c, text = rest ++ [c] → isBlank c = false)
    : trimEnd text = text := by
  rw [trimEnd_eq, trimStart_eq_self, List.reverse_reverse]
  intro c rest eq
  exact h rest.reverse c (by simpa using congrArg List.reverse eq)

theorem exists_trimEnd (text : List Char)
    : ∃ blanks, Blanks blanks ∧ text = trimEnd text ++ blanks := by
  obtain ⟨blanks, allBlank, eq⟩ := exists_trimStart text.reverse
  refine ⟨blanks.reverse, allBlank.reverse, ?_⟩
  simpa [trimEnd_eq] using congrArg List.reverse eq

/-- A text is its trimmed form between blanks. -/
theorem exists_trim (text : List Char)
    : ∃ left right, Blanks left ∧ Blanks right ∧ text = left ++ trim text ++ right := by
  obtain ⟨left, leftBlank, leftEq⟩ := exists_trimStart text
  obtain ⟨right, rightBlank, rightEq⟩ := exists_trimEnd (trimStart text)
  exact ⟨left, right, leftBlank, rightBlank, by rw [List.append_assoc, trim, ← rightEq, ← leftEq]⟩

/-- Trimming an unpadded text that stands between blanks gives that text. -/
theorem trim_of_blanks {left core right : List Char} (leftBlank : Blanks left)
    (unpadded : Unpadded core) (rightBlank : Blanks right)
    : trim (left ++ core ++ right) = core := by
  rw [trim, List.append_assoc, trimStart_append leftBlank]
  cases core with
  | nil =>
      have nothing : trimStart right = [] := by
        rw [← List.append_nil right, trimStart_append rightBlank]
        rfl
      rw [List.nil_append, nothing]
      rfl
  | cons c rest =>
      rw [trimStart_eq_self, trimEnd_append rightBlank, trimEnd_eq_self unpadded.stop]
      intro d rest' eq
      exact unpadded.start d rest (by simp_all)

end Stencil.Text
