import Stencil.Template.Piece

/-! The run of backslashes at the end of a text: halving it before a tag undoes doubling it, and an
odd backslash is what escapes the tag.
-/

namespace Stencil.Template.Piece

/-- The text with the run of backslashes at its end doubled. -/
def doubleRun (text : List Char) : List Char :=
  text ++ List.replicate (trailingBackslashes text) '\\'

/-- What makes the tag behind a text an escaped one. -/
def escapeMark (escaped : Bool) : List Char :=
  if escaped then ['\\'] else []

theorem escapeMark_eq_replicate (escaped : Bool)
    : escapeMark escaped = List.replicate escaped.toNat '\\' := by
  cases escaped <;> rfl

/-- A text with its run doubled and what escapes a tag is the text with backslashes behind it. -/
theorem doubleRun_append_escapeMark (text : List Char) (escaped : Bool)
    : doubleRun text ++ escapeMark escaped
      = text ++ List.replicate (trailingBackslashes text + escaped.toNat) '\\' := by
  rw [doubleRun, escapeMark_eq_replicate, List.append_assoc, List.replicate_append_replicate]

/-- Backslashes behind a text that does not end with one are the run at its end. -/
theorem trailingBackslashes_append {lead : List Char} (h : lead.getLast? ≠ some '\\') (n : Nat)
    : trailingBackslashes (lead ++ List.replicate n '\\') = n := by
  have allBackslashes : ∀ c ∈ List.replicate n '\\', (c == '\\') = true := by
    intro c member
    simp [List.eq_of_mem_replicate member]
  have stops : lead.reverse.takeWhile (· == '\\') = [] := by
    rw [← List.head?_reverse] at h
    cases eq : lead.reverse with
    | nil => rfl
    | cons c rest =>
        rw [eq] at h
        simpa [List.takeWhile_cons] using h
  simp only [trailingBackslashes, List.reverse_append, List.reverse_replicate]
  rw [List.takeWhile_append_of_pos allBackslashes, stops]
  simp

/-- A text is a part that does not end with a backslash and the run at its end. -/
theorem exists_run (text : List Char)
    : ∃ lead, lead.getLast? ≠ some '\\'
        ∧ text = lead ++ List.replicate (trailingBackslashes text) '\\' := by
  have run : text.reverse.takeWhile (· == '\\')
      = List.replicate (trailingBackslashes text) '\\' := by
    refine List.eq_replicate_iff.2 ⟨rfl, fun c member => ?_⟩
    simpa using List.all_eq_true.1 List.all_takeWhile c member
  refine ⟨(text.reverse.dropWhile (· == '\\')).reverse, ?_, ?_⟩
  · rw [List.getLast?_reverse]
    have first := List.head?_dropWhile_not (· == '\\') text.reverse
    intro backslash
    rw [backslash] at first
    exact absurd first (by decide)
  · have whole : text.reverse.takeWhile (· == '\\') ++ text.reverse.dropWhile (· == '\\')
        = text.reverse :=
      List.takeWhile_append_dropWhile
    rw [run] at whole
    simpa using (congrArg List.reverse whole).symm

/-- The parts of a text before a tag: halving keeps half of the run, rounded down, and the run is
odd exactly if the tag is escaped.
-/
theorem literalBefore_append {lead : List Char} (h : lead.getLast? ≠ some '\\') (n : Nat)
    : literalBefore (lead ++ List.replicate n '\\') = lead ++ List.replicate (n / 2) '\\'
      ∧ escapes (lead ++ List.replicate n '\\') = (n % 2 == 1) := by
  simp only [literalBefore, escapes, trailingBackslashes_append h, and_true]
  have kept : (lead ++ List.replicate n '\\').length - (n + 1) / 2 = lead.length + n / 2 := by
    simp only [List.length_append, List.length_replicate]
    omega
  rw [kept, List.take_length_add_append, List.take_replicate]
  congr 2
  omega

/-- A text that does not end with a backslash changes nothing at the run behind it. -/
theorem literalBefore_append_left {lead : List Char} (h : lead.getLast? ≠ some '\\')
    (before : List Char)
    : literalBefore (lead ++ before) = lead ++ literalBefore before
      ∧ escapes (lead ++ before) = escapes before := by
  obtain ⟨start, noBackslash, eq⟩ := exists_run before
  generalize trailingBackslashes before = n at eq
  subst eq
  have noBackslash' : (lead ++ start).getLast? ≠ some '\\' := by
    rw [List.getLast?_append]
    cases ends : start.getLast? with
    | none => simpa using h
    | some c => simpa [ends] using noBackslash
  have whole := literalBefore_append noBackslash' n
  have part := literalBefore_append noBackslash n
  rw [List.append_assoc] at whole
  rw [whole.1, whole.2, part.1, part.2, List.append_assoc]
  exact ⟨rfl, rfl⟩

/-- A doubled run is halved to the run, and a backslash behind it escapes. -/
theorem literalBefore_doubleRun (text : List Char) (escaped : Bool)
    : literalBefore (doubleRun text ++ escapeMark escaped) = text
      ∧ escapes (doubleRun text ++ escapeMark escaped) = escaped := by
  obtain ⟨lead, noBackslash, eq⟩ := exists_run text
  generalize trailingBackslashes text = n at eq
  subst eq
  have whole : doubleRun (lead ++ List.replicate n '\\') ++ escapeMark escaped
      = lead ++ List.replicate (n + n + escaped.toNat) '\\' := by
    rw [doubleRun_append_escapeMark, trailingBackslashes_append noBackslash]
    simp only [List.append_assoc, List.replicate_append_replicate, Nat.add_assoc]
  obtain ⟨literal, odd⟩ := literalBefore_append noBackslash (n + n + escaped.toNat)
  rw [whole, literal, odd]
  have half : (n + n + escaped.toNat) / 2 = n := by cases escaped <;> simp <;> omega
  have rest : (n + n + escaped.toNat) % 2 = escaped.toNat := by cases escaped <;> simp <;> omega
  rw [half, rest]
  exact ⟨rfl, by cases escaped <;> rfl⟩

/-- The text before a tag is its literal with the run doubled, and what escapes the tag. -/
theorem eq_doubleRun (before : List Char)
    : before = doubleRun (literalBefore before) ++ escapeMark (escapes before) := by
  obtain ⟨lead, noBackslash, eq⟩ := exists_run before
  generalize trailingBackslashes before = n at eq
  subst eq
  obtain ⟨literal, odd⟩ := literalBefore_append noBackslash n
  have mark : (n % 2 == 1).toNat = n % 2 := by
    rcases Nat.mod_two_eq_zero_or_one n with even | odd
    · simp [even]
    · simp [odd]
  rw [literal, odd, doubleRun_append_escapeMark, trailingBackslashes_append noBackslash, mark]
  simp only [List.append_assoc, List.replicate_append_replicate]
  congr 2
  omega

end Stencil.Template.Piece
