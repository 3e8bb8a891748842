import Stencil.Proofs.Text.FirstPlace
import Stencil.Template.Piece

/-! The pieces of a text, tag by tag: a text ends in a literal, or in a tag that is not closed, or
it goes on behind the first closing delimiter after its first opening one.
-/

namespace Stencil.Template

open Stencil.Text

theorem opening_ne_nil : opening ≠ [] := by decide

theorem closing_ne_nil : closing ≠ [] := by decide

namespace Piece

/-- Where the tag behind a text starts: at the backslash that escapes it, or at its delimiter. -/
def tagPosition (position : Position) (before : List Char) : Position :=
  position.after (if escapes before then before.dropLast else before)

/-- The piece of a closed tag behind a text. -/
def ofTag (before content : List Char) : Piece :=
  if escapes before then .escaped content else .tag content

/-- The text of a closed tag with what stands before it. -/
def throughTag (before content : List Char) : List Char :=
  before ++ opening ++ content ++ closing

/-- The pieces of a text at a position: it is a literal, it ends in a tag that is not closed, or it
goes on behind a closed tag.
-/
inductive Scanned : Position → List Char → List (Piece × Position) → Prop
  | literal {position text} (absent : ¬ opening <:+: text)
    : Scanned position text (ofLiteral text position)
  | unclosed {position text before after} (opens : FirstPlace opening text before after)
    (absent : ¬ closing <:+: after)
    : Scanned position text
        (ofLiteral (literalBefore before) position
          ++ [(.unclosed (escapes before), tagPosition position before)])
  | closed {position text before after content rest pieces}
    (opens : FirstPlace opening text before after)
    (closes : FirstPlace closing after content rest)
    (later : Scanned (position.after (throughTag before content)) rest pieces)
    : Scanned position text
        (ofLiteral (literalBefore before) position
          ++ (ofTag before content, tagPosition position before) :: pieces)

-----------------------------------------------------------------------------------------
-- One step of a scan
-----------------------------------------------------------------------------------------

variable {position : Position} {text before after content rest : List Char}

/-- A text without an opening delimiter is a literal. -/
theorem scanFrom_of_absent (absent : ¬ opening <:+: text) (found : Array (Piece × Position))
    : scanFrom position text found = found ++ ofLiteral text position := by
  have cut := (cutAt?_eq_none_iff opening_ne_nil).2 absent
  rw [scanFrom]
  split
  · rfl
  · simp_all

/-- A text whose first tag is not closed ends there. -/
theorem scanFrom_of_unclosed (opens : FirstPlace opening text before after)
    (absent : ¬ closing <:+: after) (found : Array (Piece × Position))
    : scanFrom position text found
      = (found ++ ofLiteral (literalBefore before) position).push
          (unclosed (escapes before), tagPosition position before) := by
  have cut := (cutAt?_eq_some_iff opening_ne_nil).2 opens
  have cutBody := (cutAt?_eq_none_iff closing_ne_nil).2 absent
  rw [scanFrom]
  split
  · simp_all
  · rename_i before' after' cut'
    obtain ⟨rfl, rfl⟩ := Prod.mk.inj (Option.some.inj (cut'.symm.trans cut))
    split
    · rfl
    · simp_all

/-- A text whose first tag is closed goes on behind it. -/
theorem scanFrom_of_closed (opens : FirstPlace opening text before after)
    (closes : FirstPlace closing after content rest) (found : Array (Piece × Position))
    : scanFrom position text found
      = scanFrom (position.after (throughTag before content)) rest
          ((found ++ ofLiteral (literalBefore before) position).push
            (ofTag before content, tagPosition position before)) := by
  have cut := (cutAt?_eq_some_iff opening_ne_nil).2 opens
  have cutBody := (cutAt?_eq_some_iff closing_ne_nil).2 closes
  rw [scanFrom]
  split
  · simp_all
  · rename_i before' after' cut'
    obtain ⟨rfl, rfl⟩ := Prod.mk.inj (Option.some.inj (cut'.symm.trans cut))
    split
    · simp_all
    · rename_i content' rest' cutBody'
      obtain ⟨rfl, rfl⟩ := Prod.mk.inj (Option.some.inj (cutBody'.symm.trans cutBody))
      rfl

-----------------------------------------------------------------------------------------
-- Scans of whole texts
-----------------------------------------------------------------------------------------

/-- What follows a closed tag is shorter than the text. -/
theorem length_rest_lt (opens : FirstPlace opening text before after)
    (closes : FirstPlace closing after content rest)
    : rest.length < text.length := by
  rw [opens.whole, closes.whole]
  simp only [opening, closing, List.length_append, List.length_cons, List.length_nil]
  omega

/-- A text has a first place of a mark, or the mark does not stand in it. -/
theorem firstPlace_or_absent {mark : List Char} (nonempty : mark ≠ []) (text : List Char)
    : (∃ before after, FirstPlace mark text before after) ∨ ¬ mark <:+: text := by
  cases cut : cutAt? mark text with
  | none => exact Or.inr ((cutAt?_eq_none_iff nonempty).1 cut)
  | some sides => exact Or.inl ⟨_, _, (cutAt?_eq_some_iff nonempty).1 cut⟩

/-- Scanning a text appends the pieces of its scan to those already found, by induction on the
length of the text.
-/
theorem exists_scan (position : Position) (text : List Char)
    : ∃ pieces,
        Scanned position text pieces
        ∧ ∀ found, (scanFrom position text found).toList = found.toList ++ pieces := by
  rcases firstPlace_or_absent opening_ne_nil text with ⟨before, after, opens⟩ | absent
  · rcases firstPlace_or_absent closing_ne_nil after with ⟨content, rest, closes⟩ | absent
    · have shorter := length_rest_lt opens closes
      obtain ⟨pieces, later, appends⟩ :=
        exists_scan (position.after (throughTag before content)) rest
      refine ⟨_, .closed opens closes later, fun found => ?_⟩
      simp [scanFrom_of_closed opens closes, appends]
    · refine ⟨_, .unclosed opens absent, fun found => ?_⟩
      simp [scanFrom_of_unclosed opens absent]
  · refine ⟨_, .literal absent, fun found => ?_⟩
    simp [scanFrom_of_absent absent]
  termination_by text.length

/-- A text has one scan only, since the places of its delimiters are determined. -/
theorem Scanned.unique {pieces more : List (Piece × Position)} (h : Scanned position text pieces)
    (h' : Scanned position text more)
    : pieces = more := by
  induction h generalizing more with
  | literal absent =>
      cases h' with
      | literal => rfl
      | unclosed opens => exact (absent ⟨_, _, opens.whole.symm⟩).elim
      | closed opens => exact (absent ⟨_, _, opens.whole.symm⟩).elim
  | unclosed opens absent =>
      cases h' with
      | literal absent' => exact (absent' ⟨_, _, opens.whole.symm⟩).elim
      | unclosed opens' =>
          obtain ⟨rfl, rfl⟩ := opens.unique opens'
          rfl
      | closed opens' closes' =>
          obtain ⟨rfl, rfl⟩ := opens.unique opens'
          exact (absent ⟨_, _, closes'.whole.symm⟩).elim
  | closed opens closes _ ih =>
      cases h' with
      | literal absent' => exact (absent' ⟨_, _, opens.whole.symm⟩).elim
      | unclosed opens' absent' =>
          obtain ⟨rfl, rfl⟩ := opens.unique opens'
          exact (absent' ⟨_, _, closes.whole.symm⟩).elim
      | closed opens' closes' later' =>
          obtain ⟨rfl, rfl⟩ := opens.unique opens'
          obtain ⟨rfl, rfl⟩ := closes.unique closes'
          rw [ih later']

/-- Scanning gives exactly the pieces of the scan of a text. -/
theorem toList_scan_eq_iff {pieces : List (Piece × Position)}
    : (scan text).toList = pieces ↔ Scanned .start text pieces := by
  obtain ⟨found, scanned, appends⟩ := exists_scan .start text
  rw [scan, appends]
  exact ⟨fun eq => by simpa [← eq] using scanned, fun h => by simpa using scanned.unique h⟩

end Piece

end Stencil.Template
