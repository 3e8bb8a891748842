import Stencil.Data.Override
import Stencil.Proofs.Path.Spelling
import Stencil.Proofs.Text.FirstPlace

/-! The texts of dotted paths and of overrides. A text is read as a path exactly if it is made of
identifiers with single dots between them, and an override exactly if there is such a text between
blanks before its first equals sign. What stands behind that sign is the value, as it is.
-/

namespace Stencil

namespace Path

-----------------------------------------------------------------------------------------
-- Identifiers and dots
-----------------------------------------------------------------------------------------

/-- One or more ASCII letters, digits or underscores. -/
structure IsIdentifier (name : String) : Prop where
  nonempty : name ≠ ""
  chars
    : ∀ c ∈ name.toList,
        ('a' ≤ c ∧ c ≤ 'z') ∨ ('A' ≤ c ∧ c ≤ 'Z') ∨ ('0' ≤ c ∧ c ≤ '9') ∨ c = '_'

/-- The text of identifiers with single dots between them. -/
inductive Dotted : Path → String → Prop
  | single {name : String} (isIdentifier : IsIdentifier name) : Dotted [name] name
  | dot {name : String} {path : Path} {text : String} (isIdentifier : IsIdentifier name)
    (rest : Dotted path text)
    : Dotted (name :: path) (name ++ "." ++ text)

theorem isNameChar_iff {c : Char}
    : isNameChar c = true
      ↔ ('a' ≤ c ∧ c ≤ 'z') ∨ ('A' ≤ c ∧ c ≤ 'Z') ∨ ('0' ≤ c ∧ c ≤ '9') ∨ c = '_' := by
  have upper : c.isUpper = true ↔ 'A' ≤ c ∧ c ≤ 'Z' := decide_eq_true_iff
  have lower : c.isLower = true ↔ 'a' ≤ c ∧ c ≤ 'z' :=
    Bool.and_eq_true_iff.trans (and_congr decide_eq_true_iff decide_eq_true_iff)
  have digit : c.isDigit = true ↔ '0' ≤ c ∧ c ≤ '9' :=
    Bool.and_eq_true_iff.trans (and_congr decide_eq_true_iff decide_eq_true_iff)
  have kinds : isNameChar c = (c.isUpper || c.isLower || c.isDigit || c == '_') := rfl
  rw [kinds, Bool.or_eq_true, Bool.or_eq_true, Bool.or_eq_true, upper, lower, digit, beq_iff_eq,
    or_assoc, or_assoc, or_left_comm]

theorem isName_iff {name : String} : isName name = true ↔ IsIdentifier name := by
  rw [isName, isNameText_iff]
  constructor
  · intro h
    refine ⟨fun none => h.1 (by rw [none]; rfl), fun c member => isNameChar_iff.1 (h.2 c member)⟩
  · intro h
    exact ⟨fun none => h.nonempty (String.toList_inj.1 none), fun c member =>
      isNameChar_iff.2 (h.chars c member)⟩

theorem wellFormed_iff {path : Path}
    : path.WellFormed ↔ path ≠ [] ∧ ∀ name ∈ path, IsIdentifier name := by
  simp only [← isName_iff]
  exact ⟨fun h => ⟨h.nonempty, h.names⟩, fun h => ⟨h.1, h.2⟩⟩

theorem format_cons (name next : String) (rest : Path)
    : format (name :: next :: rest) = name ++ "." ++ format (next :: rest) := by
  apply String.toList_inj.1
  simp only [toList_format, String.toList_append, List.map_cons, Text.joinWith_cons_cons]
  rfl

theorem format_singleton (name : String) : format [name] = name := by
  apply String.toList_inj.1
  rw [toList_format]
  rfl

/-- The text of identifiers and dots is that of a well-formed path, by induction over the text. -/
theorem Dotted.wellFormed {path : Path} {text : String} (h : Dotted path text)
    : path.WellFormed ∧ path.format = text := by
  induction h with
  | @single name isIdentifier =>
      exact ⟨wellFormed_iff.2 ⟨by simp, by simpa using isIdentifier⟩, format_singleton name⟩
  | @dot name path text isIdentifier rest ih =>
      obtain ⟨wellFormed, rfl⟩ := ih
      obtain ⟨nonempty, names⟩ := wellFormed_iff.1 wellFormed
      refine ⟨wellFormed_iff.2 ⟨by simp, ?_⟩, ?_⟩
      · simpa using ⟨isIdentifier, names⟩
      · obtain ⟨next, more, rfl⟩ := List.exists_cons_of_ne_nil nonempty
        exact format_cons name next more

/-- A well-formed path has a text of identifiers and dots, by induction over the path. -/
theorem WellFormed.dotted {path : Path} (h : path.WellFormed) : Dotted path path.format := by
  obtain ⟨nonempty, names⟩ := wellFormed_iff.1 h
  clear h
  induction path with
  | nil => exact absurd rfl nonempty
  | cons name rest ih =>
      rw [List.forall_mem_cons] at names
      cases rest with
      | nil =>
          rw [format_singleton]
          exact .single names.1
      | cons next more =>
          rw [format_cons]
          exact .dot names.1 (ih (by simp) names.2)

theorem dotted_iff {path : Path} {text : String}
    : Dotted path text ↔ path.WellFormed ∧ text = path.format := by
  constructor
  · intro h
    exact ⟨h.wellFormed.1, h.wellFormed.2.symm⟩
  · rintro ⟨wellFormed, rfl⟩
    exact wellFormed.dotted

theorem ofText?_eq_some_iff_dotted {text : List Char} {path : Path}
    : ofText? text = some path ↔ Dotted path (String.ofList text) := by
  rw [ofText?_eq_some_iff, dotted_iff, ← String.toList_inj, String.toList_ofList]

theorem parse?_eq_some_iff {text : String} {path : Path}
    : parse? text = some path ↔ Dotted path text := by
  rw [parse?, ofText?_eq_some_iff_dotted, String.ofList_toList]

end Path

-----------------------------------------------------------------------------------------
-- Overrides
-----------------------------------------------------------------------------------------

namespace Text

/-- A character does not stand before its first place. -/
theorem FirstPlace.not_mem {c : Char} {text before after : List Char}
    (h : FirstPlace [c] text before after)
    : c ∉ before := by
  intro member
  obtain ⟨left, right, rfl⟩ := List.append_of_mem member
  have early := h.first left (right ++ [c] ++ after) (by rw [h.whole]; simp)
  rw [List.length_append, List.length_cons] at early
  omega

theorem cutAt?_singleton_iff {c : Char} {text before after : List Char}
    : cutAt? [c] text = some (before, after) ↔ text = before ++ c :: after ∧ c ∉ before := by
  rw [cutAt?_eq_some_iff (by simp)]
  constructor
  · intro place
    exact ⟨by rw [place.whole]; simp, place.not_mem⟩
  · rintro ⟨rfl, absent⟩
    have place : FirstPlace [c] (before ++ [c] ++ after) before after :=
      firstPlace_of_not_mem absent after
    simpa using place

end Text

namespace Data

open Stencil.Path (Dotted IsIdentifier)

/-- A text is an override exactly if it has an equals sign and a path, between blanks, before the
first one.
-/
theorem Override.parse_eq_ok_iff {text value : String} {path : Path}
    : Override.parse text = .ok ⟨path, value⟩
      ↔ ∃ before,
          text.toList = before ++ '=' :: value.toList
          ∧ '=' ∉ before
          ∧ Dotted path (String.ofList (Text.trim before)) := by
  unfold Override.parse
  constructor
  · intro parsed
    split at parsed
    · cases parsed
    · rename_i before after found
      split at parsed
      · rename_i segments read
        cases parsed
        obtain ⟨whole, absent⟩ := Text.cutAt?_singleton_iff.1 found
        refine ⟨before, ?_, absent, Path.ofText?_eq_some_iff_dotted.1 read⟩
        rw [whole, String.toList_ofList]
      · cases parsed
  · rintro ⟨before, whole, absent, dotted⟩
    simp only [Text.cutAt?_singleton_iff.2 ⟨whole, absent⟩,
      Path.ofText?_eq_some_iff_dotted.2 dotted, String.ofList_toList]

/-- A text that is no override is refused as a whole. -/
theorem Override.parse_eq_error {text : String} {cause : Error}
    (refused : Override.parse text = .error cause)
    : cause = .badOverride text := by
  unfold Override.parse at refused
  split at refused
  · cases refused
    rfl
  · split at refused
    · cases refused
    · cases refused
      rfl

/-- Dotted paths and overrides are read exactly. A text is read as a path if and only if it is made
of identifiers with single dots between them; writing the path gives the text back, and reading what
was written gives the path back. A text is read as an override if and only if it has an equals sign
and what stands before the first one, trimmed, is such a text; the value is all that stands behind
that sign. Any other text is refused as a bad override.
-/
theorem pathsAndOverrides_exact
    : (∀ name : String, Path.isName name = true ↔ IsIdentifier name)
      ∧ (∀ (text : String) (path : Path), Path.parse? text = some path ↔ Dotted path text)
      ∧ (∀ (text : String) (path : Path), Path.parse? text = some path → path.format = text)
      ∧ (∀ path : Path, path ≠ [] → (∀ name ∈ path, IsIdentifier name) →
          Path.parse? path.format = some path)
      ∧ (∀ (text : String) (path : Path) (value : String),
          Override.parse text = .ok ⟨path, value⟩
          ↔ ∃ before,
              text.toList = before ++ '=' :: value.toList
              ∧ '=' ∉ before
              ∧ Dotted path (String.ofList (Text.trim before)))
      ∧ ∀ (text : String) (cause : Error),
          Override.parse text = .error cause → cause = .badOverride text := by
  refine ⟨fun _ => Path.isName_iff, fun _ _ => Path.parse?_eq_some_iff, ?_, ?_,
    fun _ _ _ => Override.parse_eq_ok_iff, fun _ _ => Override.parse_eq_error⟩
  · intro text path read
    exact (Path.parse?_eq_some_iff.1 read).wellFormed.2
  · intro path nonempty names
    exact Path.parse?_eq_some_iff.2 (Path.wellFormed_iff.2 ⟨nonempty, names⟩).dotted

/-- Blanks around the path are trimmed, and a second equals sign belongs to the value. A path keeps
a part that looks like a number.
-/
theorem pathsAndOverrides_exact_blanks
    : Override.parse " a.b\t=x =y" = .ok ⟨["a", "b"], "x =y"⟩
      ∧ Path.parse? "rows.0" = some ["rows", "0"]
      ∧ Path.format ["rows", "0"] = "rows.0" := by
  obtain ⟨name, read, written, -, parsed, -⟩ := pathsAndOverrides_exact
  have isName {text : String} (h : Path.isName text = true) : IsIdentifier text := (name text).1 h
  have rows : Path.parse? "rows.0" = some ["rows", "0"] :=
    (read "rows.0" ["rows", "0"]).2 (.dot (isName (by decide)) (.single (isName (by decide))))
  refine ⟨(parsed _ _ _).2 ⟨" a.b\t".toList, by decide, by decide, ?_⟩, rows, written _ _ rows⟩
  have trimmed : String.ofList (Text.trim " a.b\t".toList) = "a" ++ "." ++ "b" := by decide
  rw [trimmed]
  exact .dot (isName (by decide)) (.single (isName (by decide)))

end Data

end Stencil
