import Stencil.Generate.Target
import Stencil.Proofs.Template.BlockRuns
import Stencil.Proofs.Template.Printing

/-! A template that is one placeholder prints what its path leads to in the context. The bare word
that opens a loop header is a path, too, but no placeholder.
-/

namespace Stencil.Template

open Stencil.Text

-----------------------------------------------------------------------------------------
-- The tokens of one placeholder
-----------------------------------------------------------------------------------------

theorem toList_inBraces (content : String)
    : (inBraces content).toList = opening ++ content.toList ++ closing := by
  simp [inBraces, opening, closing]

/-- A content without closing braces is scanned as one tag. -/
theorem scanned_inBraces {content : List Char} (absent : '\x7d' ∉ content)
    : Piece.Scanned .start (opening ++ content ++ closing) [(.tag content, .start)] := by
  have opens : FirstPlace opening (opening ++ content ++ closing) [] (content ++ closing) :=
    ⟨by simp, fun _ _ _ => Nat.zero_le _⟩
  have nothing : ¬ opening <:+: [] := by decide
  exact .closed opens (firstPlace_closing absent) (.literal nothing)

/-- A path in braces is one placeholder, unless it is the word that opens a loop header. -/
theorem tokenize_inBraces {path : Path} (path_wf : path.WellFormed) (notLoopWord : path ≠ ["each"])
    : tokenize (inBraces path.format) = .ok #[.placeholder path .start] := by
  have noBrace : '\x7d' ∉ path.format.toList := path_wf.not_mem (by decide) (by decide)
  have written := (Tag.Spelling.placeholder path_wf notLoopWord).written
  have pieces := Piece.toList_scan_eq_iff.2 (scanned_inBraces noBrace)
  rw [tokenize, toList_inBraces, ← Array.foldlM_toList, pieces, List.foldlM_cons]
  simp only [Assembly.add, Tag.ofContent_eq_ok_iff.2 written]
  rfl

/-- A placeholder alone is rendered in one step, to the text of the scalar that its path leads to. -/
theorem renderTokens_placeholder (path : Path) (position : Position) (root : Table) {budget : Nat}
    (positive : 1 ≤ budget)
    : renderTokens #[.placeholder path position] root budget
      = ((scalarAt root path position).map Scalar.text).mapError .error := by
  have rendered := renderTokens_tokensFrom (.leaf (.placeholder path position) .done) root budget
  have visit : Blocks.visit root (.leaf (.placeholder path position) .done)
      = .one position ((scalarAt root path position).map Scalar.text) := by
    simp only [Blocks.visit, Leaf.visit]
    cases (scalarAt root path position).map Scalar.text with
    | error cause => rfl
    | ok text => simp [Visit.andThen, Visit.one, Visit.nothing, Except.map]
  rw [visit, Visit.one, List.getElem?_eq_none positive] at rendered
  exact rendered

-----------------------------------------------------------------------------------------
-- Looking up and printing
-----------------------------------------------------------------------------------------

/-- Looking up a path in a context finds what it leads to from the root. -/
theorem get_eq (context : Context) {text : String} {path : Path}
    (isPath : Path.parse? text = some path)
    : context.get text
      = match valueAt context.root path with
        | some value => .ok value
        | none => .error (.unknownKey path.format none) := by
  have found := value?_eq_valueAt [] context.root path
  rw [variablesOf, List.map_nil, List.nil_append] at found
  simp only [Context.get, isPath, Scope.resolve, ← found]
  rfl

end Stencil.Template

namespace Stencil.Generate

open Template

/-- A template that is a path in braces prints what looking the path up in a context gives: the text
of a scalar. A list or a table is reported with its kind, and a path that leads to nothing is
reported by both.
-/
structure PrintsLookup (path : String) (context : Context) (budget : Nat) : Prop where
  scalar
    : ∀ scalar, context.get path = .ok (.scalar scalar)
        → renderText (inBraces path) context budget = .ok scalar.text
  notAScalar
    : ∀ value, context.get path = .ok value → value.kind = .list ∨ value.kind = .table
        → renderText (inBraces path) context budget
          = .error (.render (.stopped
              (.error (.kindMismatch path .scalar value.kind (some .start)))))
  unknownKey
    : ∀ cause, context.get path = .error cause
        → cause = .unknownKey path none
          ∧ renderText (inBraces path) context budget
            = .error (.render (.stopped (.error (.unknownKey path (some .start)))))

/-- A path in braces is rendered to the text of the scalar that the path leads to. -/
theorem renderText_inBraces {path : Path} (path_wf : path.WellFormed) (notLoopWord : path ≠ ["each"])
    (context : Context) {budget : Nat} (positive : 1 ≤ budget)
    : renderText (inBraces path.format) context budget
      = ((scalarAt context.root path .start).map Scalar.text).mapError fun cause =>
          .render (.stopped (.error cause)) := by
  rw [renderText, tokenize_inBraces path_wf notLoopWord]
  simp only [renderTokens_placeholder path .start context.root positive]
  cases scalarAt context.root path .start <;> rfl

/-- The bare word in braces is a loop header without a source and without a name for the items. -/
theorem renderText_inBraces_loopWord (context : Context) (budget : Nat)
    : renderText (inBraces "each") context budget
      = .error (.template (.invalidTag (.malformedLoop "each") .start)) := by
  have tokenized
      : tokenize (inBraces "each") = .error (.invalidTag (.malformedLoop "each") .start) := by cbv
  rw [renderText, tokenized]

theorem kind_scalar_ne (scalar : Scalar)
    : ¬ ((Value.scalar scalar).kind = .list ∨ (Value.scalar scalar).kind = .table) := by
  cases scalar <;> simp [Value.kind, Scalar.kind]

/-- Every path that can be looked up can be printed, but for the bare word that opens loop headers:
in braces that one is a loop header without a source, whatever the context is.
-/
theorem printsLookup_of_path {text : String} (isPath : (Path.parse? text).isSome)
    (context : Context) (budget : Nat) (positive : 1 ≤ budget)
    : (text ≠ "each" → PrintsLookup text context budget)
      ∧ (text = "each"
        → renderText (inBraces text) context budget
          = .error (.template (.invalidTag (.malformedLoop "each") .start))) := by
  obtain ⟨path, isPath⟩ := Option.isSome_iff_exists.1 isPath
  obtain ⟨path_wf, spelled⟩ := Path.ofText?_eq_some_iff.1 isPath
  obtain rfl : text = path.format := String.toList_inj.1 spelled
  have found := get_eq context isPath
  constructor
  · intro notEach
    have notLoopWord : path ≠ ["each"] := by
      rintro rfl
      exact notEach (by decide)
    have rendered := renderText_inBraces path_wf notLoopWord context positive
    rw [scalarAt] at rendered
    cases leads : valueAt context.root path with
    | none =>
        rw [leads] at found rendered
        refine ⟨fun scalar got => ?_, fun value got => ?_, fun cause got => ?_⟩
        · cases found.symm.trans got
        · cases found.symm.trans got
        · cases found.symm.trans got
          exact ⟨rfl, rendered⟩
    | some value =>
        rw [leads] at found rendered
        refine ⟨fun scalar got => ?_, fun value got kinds => ?_, fun cause got => ?_⟩
        · cases found.symm.trans got
          exact rendered
        · cases found.symm.trans got
          cases value with
          | scalar scalar => exact absurd kinds (kind_scalar_ne scalar)
          | list items => exact rendered
          | table entries => exact rendered
        · cases found.symm.trans got
  · intro isEach
    rw [isEach, renderText_inBraces_loopWord]

/-- A path may start with the word, and its other names may be digits only. -/
theorem printsLookup_of_path_longer
    : let context : Context :=
        ⟨[("each", .table [("0", .scalar (.integer 7)), ("_", .list []), ("each", .table [])])]⟩
      (Path.parse? "each.0").isSome
        ∧ renderText (inBraces "each.0") context 1 = .ok "7"
        ∧ renderText (inBraces "each._") context 1
          = .error (.render (.stopped
              (.error (.kindMismatch "each._" .scalar .list (some .start)))))
        ∧ renderText (inBraces "each.each.0") context 1
          = .error (.render (.stopped (.error (.unknownKey "each.each.0" (some .start))))) := by
  intro context
  have first : (Path.parse? "each.0").isSome := by decide
  have second : (Path.parse? "each._").isSome := by decide
  have third : (Path.parse? "each.each.0").isSome := by decide
  have scalar := (printsLookup_of_path first context 1 (by decide)).1 (by decide)
  have notAScalar := (printsLookup_of_path second context 1 (by decide)).1 (by decide)
  have unknownKey := (printsLookup_of_path third context 1 (by decide)).1 (by decide)
  refine ⟨first, ?_, ?_, ?_⟩
  · exact scalar.scalar (.integer 7) (by rfl)
  · exact notAScalar.notAScalar (.list []) (by rfl) (.inl rfl)
  · exact (unknownKey.unknownKey _ (by rfl)).2

/-- The bare word leads to an entry of a context, and a template cannot print that entry. -/
theorem not_printsLookup_loopWord
    : let context : Context := ⟨[("each", .scalar (.string "v"))]⟩
      (Path.parse? "each").isSome
        ∧ context.get "each" = .ok (.scalar (.string "v"))
        ∧ renderText (inBraces "each") context 1
          = .error (.template (.invalidTag (.malformedLoop "each") .start))
        ∧ ¬ PrintsLookup "each" context 1 := by
  intro context
  have found : context.get "each" = .ok (.scalar (.string "v")) := by rfl
  have fails := renderText_inBraces_loopWord context 1
  refine ⟨by decide, found, fails, fun prints => ?_⟩
  cases fails.symm.trans (prints.scalar _ found)

end Stencil.Generate
