import Stencil.Path
import Stencil.Proofs.Text.Trimming

/-! Dotted paths and their texts determine each other: a text is read as a path exactly if it is
the text of that path, and the path is well formed.
-/

namespace Stencil

namespace Text

@[simp] theorem joinWith_cons_cons (separator piece next : List Char)
    (more : List (List Char))
    : joinWith separator (piece :: next :: more)
      = piece ++ separator ++ joinWith separator (next :: more) :=
  rfl

/-- Pieces joined by a separator, as the core library has it. -/
theorem joinWith_eq_intercalate (separator : List Char) (pieces : List (List Char))
    : joinWith separator pieces = separator.intercalate pieces := by
  induction pieces with
  | nil => rfl
  | cons piece rest ih =>
      cases rest with
      | nil => simp [joinWith]
      | cons next more => simpa using ih

/-- A character of joined pieces is one of a piece or of the separator. -/
theorem exists_of_mem_joinWith {separator : List Char} {pieces : List (List Char)} {c : Char}
    (member : c ∈ joinWith separator pieces)
    : c ∈ separator ∨ ∃ piece ∈ pieces, c ∈ piece := by
  induction pieces with
  | nil => exact absurd member List.not_mem_nil
  | cons piece rest ih =>
      cases rest with
      | nil => exact .inr ⟨piece, List.mem_cons_self .., member⟩
      | cons next more =>
          rw [joinWith_cons_cons, List.append_assoc, List.mem_append, List.mem_append] at member
          rcases member with inFirst | inSeparator | inRest
          · exact .inr ⟨piece, List.mem_cons_self .., inFirst⟩
          · exact .inl inSeparator
          · exact (ih inRest).imp_right fun ⟨other, inPieces, inOther⟩ =>
              ⟨other, List.mem_cons_of_mem _ inPieces, inOther⟩

/-- A text without the separator is one piece, and so it stays in front of a separator. -/
theorem splitOn_append {separator : Char} {piece : List Char} (absent : separator ∉ piece)
    (rest : List Char)
    : splitOn separator piece = [piece]
      ∧ splitOn separator (piece ++ separator :: rest) = piece :: splitOn separator rest := by
  induction piece with
  | nil => simp [splitOn]
  | cons c piece ih =>
      simp only [List.mem_cons, not_or] at absent
      obtain ⟨alone, before⟩ := ih absent.2
      have other : ¬ c = separator := fun eq => absent.1 eq.symm
      constructor
      · rw [splitOn, if_neg other, alone]
      · rw [List.cons_append, splitOn, if_neg other, before]

/-- Splitting takes joined pieces apart again if none of them holds the separator. -/
theorem splitOn_joinWith {separator : Char} {pieces : List (List Char)}
    (nonempty : pieces ≠ []) (absent : ∀ piece ∈ pieces, separator ∉ piece)
    : splitOn separator (joinWith [separator] pieces) = pieces := by
  induction pieces with
  | nil => exact absurd rfl nonempty
  | cons piece rest ih =>
      have here := splitOn_append (absent piece (by simp))
      cases rest with
      | nil => exact (here []).1
      | cons next more =>
          have tail := ih (by simp) (fun other member => absent other (by simp [member]))
          rw [joinWith_cons_cons, List.append_assoc, List.singleton_append, (here _).2, tail]

end Text

namespace Path

/-- A path has a segment, and its segments are names. -/
structure WellFormed (path : Path) : Prop where
  nonempty : path ≠ []
  names : ∀ segment ∈ path, isName segment = true

/-- A name character is an ASCII letter, digit or underscore, seen as a code point. -/
theorem toNat_of_isNameChar {c : Char} (h : isNameChar c = true)
    : (48 ≤ c.toNat ∧ c.toNat ≤ 57) ∨ (65 ≤ c.toNat ∧ c.toNat ≤ 90)
      ∨ c.toNat = 95 ∨ (97 ≤ c.toNat ∧ c.toNat ≤ 122) := by
  replace h : (decide (65 ≤ c.val ∧ c.val ≤ 90) || (decide (97 ≤ c.val) && decide (c.val ≤ 122))
      || (decide (48 ≤ c.val) && decide (c.val ≤ 57)) || c == '_') = true := h
  simp only [Bool.or_eq_true, decide_eq_true_eq, Bool.and_eq_true, beq_iff_eq,
    UInt32.le_iff_toNat_le] at h
  rcases h with ((h | h) | h) | rfl
  · exact Or.inr (Or.inl h)
  · exact Or.inr (Or.inr (Or.inr h))
  · exact Or.inl h
  · decide

theorem not_isBlank_of_isNameChar {c : Char} (h : isNameChar c = true)
    : Text.isBlank c = false := by
  have code := toNat_of_isNameChar h
  simp only [Text.isBlank, Text.blankRanges, List.any_cons, List.any_nil, Bool.or_false,
    Bool.or_eq_false_iff, Bool.and_eq_false_iff, decide_eq_false_iff_not]
  omega

/-- A text is a name exactly if it has a character and all are name characters. -/
theorem isNameText_iff {text : List Char}
    : isNameText text = true ↔ text ≠ [] ∧ ∀ c ∈ text, isNameChar c = true := by
  simp [isNameText]

/-- The text of a path joins the texts of its segments. -/
theorem toList_format (path : Path)
    : path.format.toList = Text.joinWith ['.'] (path.map String.toList) := by
  rw [Text.joinWith_eq_intercalate, format, String.toList_intercalate]
  rfl

/-- A character of a path text is a dot or a name character. -/
theorem WellFormed.char_of_mem {path : Path} (h : path.WellFormed) {c : Char}
    (member : c ∈ path.format.toList)
    : c = '.' ∨ isNameChar c = true := by
  rw [toList_format] at member
  refine (Text.exists_of_mem_joinWith member).imp List.mem_singleton.1 fun found => ?_
  obtain ⟨piece, inPieces, isIn⟩ := found
  obtain ⟨segment, inPath, rfl⟩ := List.mem_map.1 inPieces
  exact (isNameText_iff.1 (h.names segment inPath)).2 c isIn

/-- A character that is no dot and no name character is not in a path text. -/
theorem WellFormed.not_mem {path : Path} (h : path.WellFormed) {c : Char} (notDot : c ≠ '.')
    (notName : isNameChar c = false)
    : c ∉ path.format.toList := by
  intro member
  rcases h.char_of_mem member with dot | isName
  · exact notDot dot
  · simp [notName] at isName

/-- A character that is no name character is not in a name. -/
theorem not_mem_of_isName {name : String} (h : isName name = true) {c : Char}
    (notName : isNameChar c = false)
    : c ∉ name.toList := by
  intro member
  have isName := (isNameText_iff.1 h).2 c member
  simp [notName] at isName

theorem WellFormed.format_ne_nil {path : Path} (h : path.WellFormed)
    : path.format.toList ≠ [] := by
  obtain ⟨nonempty, names⟩ := h
  rw [toList_format]
  cases path with
  | nil => exact absurd rfl nonempty
  | cons segment rest =>
      have first := (isNameText_iff.1 (names segment (by simp))).1
      cases rest with
      | nil => simpa [Text.joinWith] using first
      | cons next more => simp

theorem WellFormed.not_isBlank {path : Path} (h : path.WellFormed) {c : Char}
    (member : c ∈ path.format.toList)
    : Text.isBlank c = false := by
  rcases h.char_of_mem member with rfl | isName
  · decide
  · exact not_isBlank_of_isNameChar isName

/-- A text is read as a path exactly if the path is well formed and has that text.
Reading splits at the dots, and joining with dots gives the text back; no name holds a dot.
-/
theorem ofText?_eq_some_iff {text : List Char} {path : Path}
    : ofText? text = some path ↔ path.WellFormed ∧ text = path.format.toList := by
  unfold ofText?
  constructor
  · intro h
    simp only [Option.ite_none_right_eq_some, Option.some.injEq, List.all_eq_true] at h
    obtain ⟨names, rfl⟩ := h
    refine ⟨⟨?_, ?_⟩, ?_⟩
    · simpa using Text.splitOn_ne_nil '.' text
    · intro segment member
      obtain ⟨piece, inPieces, rfl⟩ := List.mem_map.1 member
      simpa [isName] using names piece inPieces
    · rw [toList_format, List.map_map]
      simpa [Function.comp_def] using (Text.joinWith_splitOn '.' text).symm
  · rintro ⟨⟨nonempty, names⟩, rfl⟩
    have noDot : ∀ piece ∈ path.map String.toList, '.' ∉ piece := by
      intro piece member
      obtain ⟨segment, inPath, rfl⟩ := List.mem_map.1 member
      exact not_mem_of_isName (names segment inPath) (by decide)
    rw [toList_format, Text.splitOn_joinWith (by simpa using nonempty) noDot]
    have allNames : (path.map String.toList).all isNameText = true := by
      simpa [isName] using names
    simp only [allNames, if_true, Option.some.injEq, List.map_map]
    simp [Function.comp_def]

end Path

end Stencil
