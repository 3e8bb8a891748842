import Stencil.Proofs.Files.Glob.FolderExpression
import Stencil.Proofs.Files.Glob.TemplateRegex

/-! The regular expression of the pattern of all that stands below a directory. It matches the path
of the directory itself, so a search does not enter the directory.
-/

namespace Stencil.Files.Glob

open Expression (literalOutput belowOutput)
open Regex (readSequence readTerm readEither repeatedAs repetition? Unread Reaches)

/-- A name of one or two dots, up to its end. -/
def dotNameRegex : Regex :=
  .sequence (.times 1 (some 2) false (.exactly 46))
    (.sequence (.either (.sequence (.exactly 47) .empty) (.sequence .stop .empty)) .empty)

/-- A unit before which no such name starts. -/
def namesUnitRegex : Regex :=
  .sequence
    (.look true true
      (.sequence (.either (.sequence .start .empty) (.sequence (.exactly 47) .empty))
        dotNameRegex))
    (.sequence (.oneOf true UnitSet.lineEnds) .empty)

/-- A slash and any names, before which something does not come and before whose units something
else does not.
-/
def belowBehind (guard barred : Regex) : Regex :=
  .sequence (.exactly 47)
    (.sequence (.look true true guard)
      (.sequence
        (.sequence
          (.times 0 none true
            (.sequence (.look true true barred)
              (.sequence (.oneOf true UnitSet.lineEnds) .empty)))
          .empty)
        .empty))

/-- A slash and any names, where hidden ones are shown. -/
def belowRegex : Regex :=
  .sequence (.exactly 47)
    (.sequence (.look true true dotNameRegex)
      (.sequence (.sequence (.times 0 none true namesUnitRegex) .empty) .empty))

/-- A text, and what comes below it or nothing. -/
def folderRegex (text : List Char) (below : Regex) : Regex :=
  .sequence .start
    (.sequence (wordRegex text (.sequence (.either below (.sequence .stop .empty)) .empty))
      (.sequence .stop .empty))

variable {groups fuel number : Nat} {text tail : List Char} {shown : Bool}

-----------------------------------------------------------------------------------------
-- Reading the expression
-----------------------------------------------------------------------------------------

/-- Nothing in the expression of a text that spells itself is repeated. -/
theorem repetition?_literal
    (chars : ∀ c ∈ text, IsSpelled c)
    : repetition? (literalOutput text ++ '(' :: tail) = none := by
  cases text with
  | nil => rfl
  | cons c text =>
      rcases chars c (List.mem_cons_self ..) with isWord | rfl | rfl | rfl | rfl | rfl
      · have own : literalOutput [c] = [c] :=
          Expression.State.literalOutput_word (by simpa using isWord)
        have split := Expression.State.literalOutput_append [c] text
        rw [List.singleton_append, own] at split
        rw [split]
        exact repetition?_of_isWord isWord
      all_goals rfl

/-- A text that spells itself is read character by character, by induction on it. -/
theorem readSequence_literal {last : Regex} {after : Unread}
    (chars : ∀ c ∈ text, IsSpelled c)
    (h : readSequence groups fuel ⟨'(' :: tail, number⟩ = some (last, after))
    : readSequence groups (fuel + text.length) ⟨literalOutput text ++ '(' :: tail, number⟩
      = some (wordRegex text last, after) := by
  induction text with
  | nil => exact h
  | cons c text ih =>
      have isRest (other : Char) (member : other ∈ text) :=
        chars other (List.mem_cons_of_mem _ member)
      have follows : repetition? (literalOutput text ++ '(' :: tail) = none :=
        repetition?_literal isRest
      have marked (unit : Nat)
          : repeatedAs (.exactly unit) ⟨literalOutput text ++ '(' :: tail, number⟩
            = some (.exactly unit, ⟨literalOutput text ++ '(' :: tail, number⟩) := by
        simp only [repeatedAs, follows]
      rcases chars c (List.mem_cons_self ..) with isWord | rfl | rfl | rfl | rfl | rfl
      · have own : literalOutput [c] = [c] :=
          Expression.State.literalOutput_word (by simpa using isWord)
        have split := Expression.State.literalOutput_append [c] text
        rw [List.singleton_append, own] at split
        rw [split]
        exact readSequence_of_readTerm (startsTerm_of_isWord isWord)
          (readTerm_of_isWord isWord follows) (ih isRest)
      · exact readSequence_of_readTerm rfl (marked 46) (ih isRest)
      · exact readSequence_of_readTerm rfl (marked 47) (ih isRest)
      · exact readSequence_of_readTerm rfl (marked 43) (ih isRest)
      · exact readSequence_of_readTerm rfl (marked 64) (ih isRest)
      · exact readSequence_of_readTerm rfl (marked 44) (ih isRest)

theorem exists_readSequence_below (shown : Bool) (groups fuel number : Nat)
    : ∃ guard barred,
        readSequence groups (fuel + 40) ⟨belowOutput shown ++ [')', '$'], number⟩
        = some (.sequence (.either (belowBehind guard barred) (.sequence .stop .empty)) .empty,
            ⟨[')', '$'], number⟩)
        ∧ (shown = true → belowBehind guard barred = belowRegex) := by
  cases shown with
  | false => exact ⟨_, _, rfl, nofun⟩
  | true => exact ⟨_, _, rfl, fun _ => rfl⟩

theorem length_le_literalOutput (text : List Char) : text.length ≤ (literalOutput text).length := by
  induction text with
  | nil => exact Nat.zero_le _
  | cons c text ih =>
      have split := Expression.State.literalOutput_append [c] text
      have positive : 0 < (literalOutput [c]).length := by
        simp only [literalOutput, List.flatMap_singleton]
        split_ifs
        · decide
        · decide
        · decide
        · exact Nat.one_pos
      rw [List.singleton_append] at split
      rw [split, List.length_append, List.length_cons]
      omega

/-- The expression as a regular expression: the text, and then names below it, or nothing. -/
theorem exists_regexOf_folderPattern (isLiteral : IsLiteral text)
    : ∃ guard barred,
        regexOf shown (folderPattern text) = folderRegex text (belowBehind guard barred)
        ∧ (shown = true → belowBehind guard barred = belowRegex) := by
  obtain ⟨fuel, length⟩ : ∃ fuel,
      3 * (Expression.whole (literalOutput text ++ belowOutput shown)).length + 3
        = fuel + text.length + 44 := by
    have long : 20 ≤ (belowOutput shown).length := by cases shown <;> decide
    have longer := length_le_literalOutput text
    refine ⟨3 * (Expression.whole (literalOutput text ++ belowOutput shown)).length
      - text.length - 41, ?_⟩
    rw [whole_eq]
    simp only [List.length_cons, List.length_append]
    omega
  let groups := Regex.countGroups false (Expression.whole (literalOutput text ++ belowOutput shown))
  obtain ⟨guard, barred, ending, isShown⟩ := exists_readSequence_below shown groups fuel 1
  have inside : readSequence groups (fuel + 40 + text.length)
      ⟨literalOutput text ++ (belowOutput shown ++ [')', '$']), 1⟩ = some (_, ⟨[')', '$'], 1⟩) :=
    readSequence_literal isLiteral.chars ending
  rw [Nat.add_right_comm, ← List.append_assoc] at inside
  refine ⟨guard, barred, ?_, isShown⟩
  rw [regexOf, Expression.ofPattern_folderPattern isLiteral, Regex.ofText?, length,
    readEither_whole inside]
  rfl

-----------------------------------------------------------------------------------------
-- What the expression matches
-----------------------------------------------------------------------------------------

theorem unitsOf_literal {c : Char}
    (isSpelled : IsSpelled c)
    : Text.unitsOf c = [c.toNat] := by
  rcases isSpelled with isWord | rfl | rfl | rfl | rfl | rfl
  · exact unitsOf_of_isWord isWord
  all_goals rfl

/-- The characters of a text lead behind them, by induction on the text. -/
theorem reaches_wordRegex {last : Regex} (before after : List Nat) {next : Regex.Spot}
    (chars : ∀ c ∈ text, IsSpelled c)
    (h : Reaches last ⟨(text.flatMap Text.unitsOf).reverse ++ before, after, []⟩ next)
    : Reaches (wordRegex text last) ⟨before, text.flatMap Text.unitsOf ++ after, []⟩ next := by
  induction text generalizing before with
  | nil => exact h
  | cons c text ih =>
      have units := unitsOf_literal (chars c (List.mem_cons_self ..))
      simp only [List.flatMap_cons, units, List.reverse_cons, List.append_assoc,
        List.cons_append] at h ⊢
      exact (Regex.reaches_exactly _ _ _ _).sequence
        (ih _ (fun other member => chars other (List.mem_cons_of_mem _ member)) h)

/-- The expression is found in the text with something behind it, if that leads to the end. -/
theorem isFoundIn_folderRegex {below : Regex} {more : List Char} {next : Regex.Spot}
    (chars : ∀ c ∈ text, IsSpelled c)
    (h : Reaches (.either below (.sequence .stop .empty))
      ⟨(text.flatMap Text.unitsOf).reverse, more.flatMap Text.unitsOf, []⟩ next)
    (atEnd : next.after = [])
    : (folderRegex text below).isFoundIn (text ++ more) = true := by
  rw [← List.append_nil (text.flatMap Text.unitsOf).reverse] at h
  have named := reaches_wordRegex [] _ chars (h.sequence (Regex.reaches_empty _))
  rw [← List.flatMap_append] at named
  exact Regex.isFoundIn_of_reaches ((Regex.reaches_start rfl).sequence
    (named.sequence ((Regex.reaches_stop atEnd).sequence (Regex.reaches_empty _))))

/-- The pattern of all that stands below a directory matches the directory. -/
theorem isFoundIn_folderPattern (isLiteral : IsLiteral text)
    : (regexOf shown (folderPattern text)).isFoundIn text = true := by
  obtain ⟨guard, barred, regex, _⟩ := exists_regexOf_folderPattern isLiteral
  have nothing : Reaches (.either (belowBehind guard barred) (.sequence .stop .empty))
      ⟨(text.flatMap Text.unitsOf).reverse, ([] : List Char).flatMap Text.unitsOf, []⟩ _ :=
    ((Regex.reaches_stop rfl).sequence (Regex.reaches_empty _)).either_right
  have found := isFoundIn_folderRegex isLiteral.chars nothing rfl
  rwa [List.append_nil, ← regex] at found

end Stencil.Files.Glob
