import Stencil.Proofs.Template.BlockRuns
import Stencil.Proofs.Template.LoopSpans
import Stencil.Proofs.Template.PieceTokens
import Stencil.Proofs.Text.Units
import Stencil.Template.Outline

/-! The errors of a rendering point at the tags that cause them. An error comes of one token, that
token was made of a live tag of the text, and the outline of the template lists the path that the
error names.
-/

namespace Stencil.Template

open Stencil.Text

-----------------------------------------------------------------------------------------
-- Live tags of a text
-----------------------------------------------------------------------------------------

/-- A live tag with a content stands at a place of a text: it is the first tag and not escaped, or
it is live in the text behind the first tag, which is closed.
-/
inductive LiveTag (content : List Char) (place : Position) : Position → List Char → Prop
  | first {position : Position} {text before after rest : List Char}
    (opens : FirstPlace opening text before after)
    (closes : FirstPlace closing after content rest)
    (even : Piece.escapes before = false)
    (here : place = position.after before)
    : LiveTag content place position text
  | behind {position : Position} {text before after other rest : List Char}
    (opens : FirstPlace opening text before after)
    (closes : FirstPlace closing after other rest)
    (later : LiveTag content place (position.after (Piece.throughTag before other)) rest)
    : LiveTag content place position text

/-- A live tag stands in the text behind what leads to its place, by induction on the tags before
it.
-/
theorem LiveTag.exists_eq {content text : List Char} {place position : Position}
    (h : LiveTag content place position text)
    : ∃ before rest,
        text = before ++ opening ++ content ++ closing ++ rest
        ∧ place = position.after before := by
  induction h with
  | @first position text before after rest opens closes even here =>
      refine ⟨before, rest, ?_, here⟩
      rw [opens.whole, closes.whole]
      simp
  | @behind position text before after other rest opens closes later ih =>
      obtain ⟨lead, last, rfl, there⟩ := ih
      refine ⟨Piece.throughTag before other ++ lead, last, ?_, ?_⟩
      · rw [opens.whole, closes.whole]
        simp [Piece.throughTag]
      · rw [there, Position.after_append]

/-- The piece of a literal is no tag. -/
theorem Piece.tag_not_mem_ofLiteral {literal content : List Char} {position place : Position}
    : (Piece.tag content, place) ∉ ofLiteral literal position := by
  unfold ofLiteral
  split <;> simp

/-- The tags among the pieces of a text are its live ones, by induction on the scan. -/
theorem Piece.Scanned.liveTag {position place : Position} {text content : List Char}
    {pieces : List (Piece × Position)} (scanned : Scanned position text pieces)
    (member : (.tag content, place) ∈ pieces)
    : LiveTag content place position text := by
  induction scanned with
  | literal absent => exact absurd member tag_not_mem_ofLiteral
  | unclosed opens absent =>
      rcases List.mem_append.1 member with isLiteral | isLast
      · exact absurd isLiteral tag_not_mem_ofLiteral
      · cases List.mem_singleton.1 isLast
  | @closed position text before after other rest pieces opens closes _ ih =>
      rcases List.mem_append.1 member with isLiteral | member
      · exact absurd isLiteral tag_not_mem_ofLiteral
      rcases List.mem_cons.1 member with isFirst | later
      · obtain ⟨isTag, here⟩ := Prod.mk.inj isFirst
        unfold ofTag at isTag
        split at isTag
        · cases isTag
        · rename_i notOdd
          cases isTag
          rw [tagPosition, if_neg notOdd] at here
          exact .first opens closes (Bool.not_eq_true _ ▸ notOdd) here
      · exact .behind opens closes (ih later)

/-- A place of a template text is that of a live tag: the opening delimiter stands at its offset,
and the content is read as the tag.
-/
structure PointsAt (text : List Char) (place : Position) (tag : Tag) : Prop where
  opens
    : unitSlice text place.offset (place.offset + units opening) = opening.flatMap unitsOf
  live : ∃ content, LiveTag content place .start text ∧ Tag.ofContent content = .ok tag

theorem LiveTag.pointsAt {text content : List Char} {place : Position} {tag : Tag}
    (live : LiveTag content place .start text) (written : Tag.Written tag content)
    : PointsAt text place tag := by
  refine ⟨?_, content, live, Tag.ofContent_eq_ok_iff.2 written⟩
  obtain ⟨before, rest, rfl, rfl⟩ := live.exists_eq
  have offset : (Position.start.after before).offset = units before := by
    rw [Position.offset_after]
    exact Nat.zero_add _
  have stop : units before + units opening = units (before ++ opening) := by
    simp [units_eq_length]
  rw [offset, stop]
  simpa using unitSlice_append before opening (content ++ closing ++ rest)

/-- A token that stands for a tag is made of a content that stands for it, and stands at its place. -/
theorem Piece.Makes.exists_content {piece : Piece} {token : Token} {tag : Tag} {place : Position}
    (makes : piece.Makes token) (stands : token.tag? = some (tag, place))
    : token.position = place ∧ ∃ content, piece = .tag content ∧ Tag.Written tag content := by
  cases makes with
  | literal => cases stands
  | escaped => cases stands
  | placeholder written =>
      cases stands
      exact ⟨rfl, _, rfl, written⟩
  | loopStart written =>
      cases stands
      exact ⟨rfl, _, rfl, written⟩
  | loopEnd written =>
      cases stands
      exact ⟨rfl, _, rfl, written⟩

/-- The tag that a token of a text stands for is live in the text, at the place of the token. -/
theorem pointsAt_of_mem {text : String} {tokens : Array Token} {token : Token} {tag : Tag}
    {place : Position} (tokenized : tokenize text = .ok tokens) (member : token ∈ tokens)
    (stands : token.tag? = some (tag, place))
    : PointsAt text.toList place tag := by
  obtain ⟨pieces, scanned, made⟩ := forall₂_tokenize tokenized
  obtain ⟨⟨piece, there⟩, inPieces, makes, here⟩ := mem_of_forall₂ made member.val
  obtain ⟨rfl, content, rfl, written⟩ := makes.exists_content stands
  cases here
  exact (scanned.liveTag inPieces).pointsAt written

-----------------------------------------------------------------------------------------
-- What an outline lists
-----------------------------------------------------------------------------------------

namespace Outline

/-- Leaving out repetitions leaves out no item. By induction on the items. -/
theorem mem_distinct {item : String} {items : List String}
    : item ∈ distinct items ↔ item ∈ items := by
  suffices h : ∀ found : List String,
      item ∈ items.foldl
          (fun found item => if found.contains item then found else item :: found) found
        ↔ item ∈ found ∨ item ∈ items by
    simpa [distinct] using h []
  induction items with
  | nil => simp
  | cons first rest ih =>
      intro found
      rw [List.foldl_cons, ih, List.mem_cons]
      split
      · rename_i there
        have isFound : first ∈ found := by simpa using there
        constructor
        · exact Or.imp_right .inr
        · rintro (isFound' | rfl | later)
          · exact .inl isFound'
          · exact .inl isFound
          · exact .inr later
      · rw [List.mem_cons, or_assoc, or_left_comm]

/-- The path of a placeholder is listed among the placeholders. -/
theorem mem_placeholders {tokens : List Token} {path : Path} {position : Position}
    (member : .placeholder path position ∈ tokens)
    : path.format ∈ (ofTokens tokens).placeholders :=
  mem_distinct.2 (List.mem_filterMap.2 ⟨_, member, rfl⟩)

/-- The source of a loop is listed among the loops. -/
theorem mem_loops {tokens : List Token} {path : Path} {binding : String} {body : Span}
    {position : Position} (member : .loopStart path binding body position ∈ tokens)
    : path.format ∈ (ofTokens tokens).loops :=
  mem_distinct.2 (List.mem_filterMap.2 ⟨_, member, rfl⟩)

end Outline

-----------------------------------------------------------------------------------------
-- The tokens that errors come of
-----------------------------------------------------------------------------------------

/-- What can go wrong at a token: its path leads to nothing, or to no scalar at a placeholder and to
no list at a loop start, or the steps are spent in front of it.
-/
inductive Token.Raises : Token → Error → Prop
  | unknownKey (path : Path) (position : Position)
    : Raises (.placeholder path position) (.unknownKey path.format (some position))
  | notAScalar (path : Path) (position : Position) (actual : Kind)
    : Raises (.placeholder path position)
        (.kindMismatch path.format .scalar actual (some position))
  | unknownSource (path : Path) (binding : String) (body : Span) (position : Position)
    : Raises (.loopStart path binding body position) (.unknownKey path.format (some position))
  | notAList (path : Path) (binding : String) (body : Span) (position : Position) (actual : Kind)
    : Raises (.loopStart path binding body position)
        (.kindMismatch path.format .list actual (some position))
  | outOfSteps (token : Token) (budget : Nat)
    : Raises token (.outOfSteps budget token.position)

/-- Where no scalar is found, the path of the placeholder is to blame. -/
theorem raises_of_scalarAt {entries : Table} {path : Path} {position : Position} {cause : Error}
    (failed : scalarAt entries path position = .error cause)
    : (Token.placeholder path position).Raises cause := by
  unfold scalarAt at failed
  split at failed
  · cases failed
    exact .unknownKey path position
  · cases failed
  · cases failed
    exact .notAScalar path position _

/-- Where no list is found, the source of the loop is to blame. -/
theorem raises_of_itemsAt {entries : Table} {path : Path} {position : Position} {cause : Error}
    (failed : itemsAt entries path position = .error cause) (binding : String) (body : Span)
    : (Token.loopStart path binding body position).Raises cause := by
  unfold itemsAt at failed
  split at failed
  · cases failed
    exact .unknownSource path binding body position
  · cases failed
  · cases failed
    exact .notAList path binding body position _

namespace Run

variable {tokens : Array Token} {root : Table} {run : Run} {cause : Error}

/-- A step that fails raises an error of its token. -/
theorem raises_of_step {token : Token} (failed : run.step root token = .error (.error cause))
    : token.Raises cause := by
  cases token with
  | literal text position => cases failed
  | escaped text position => cases failed
  | placeholder path position =>
      simp only [step, scope, resolveScalar_eq] at failed
      split at failed
      · cases failed
      · rename_i found
        cases failed
        exact raises_of_scalarAt found
  | loopStart path binding body position =>
      simp only [step, scope, resolveList_eq] at failed
      split at failed
      · cases failed
      · rename_i found
        cases failed
        exact raises_of_itemsAt found binding body
  | loopEnd start position =>
      simp only [step, turn] at failed
      split at failed
      · cases failed
      · split at failed <;> cases failed

/-- A run that fails raises an error of one of the tokens, by induction on the steps left. -/
theorem exists_raises_of_complete {budget left : Nat}
    (failed : run.complete tokens root budget left = .error (.error cause))
    : ∃ token ∈ tokens, token.Raises cause := by
  induction left generalizing run with
  | zero =>
      rw [complete] at failed
      split at failed
      · cases failed
      · rename_i token here
        cases failed
        exact ⟨token, Array.mem_of_getElem? here, .outOfSteps token budget⟩
  | succ left ih =>
      rw [complete] at failed
      split at failed
      · cases failed
      · rename_i token here
        simp only at failed
        split at failed
        · exact ih failed
        · rename_i stopped
          cases failed
          exact ⟨token, Array.mem_of_getElem? here, raises_of_step stopped⟩

end Run

-----------------------------------------------------------------------------------------
-- Errors of renderings
-----------------------------------------------------------------------------------------

/-- What the rendering of a template text may report. An unknown key or a kind that does not fit is
told at a live tag with the path that is told: a placeholder, which asks for a scalar and is listed
among the placeholders, or a loop header, which asks for a list and is listed among the loops. All
else is that the steps are spent, which is told at a token.
-/
inductive Reports (text : List Char) (tokens : Array Token) : Error → Prop
  | placeholder {path : Path} {position : Position} {cause : Error}
    (points : PointsAt text position (.placeholder path))
    (listed : path.format ∈ (Outline.ofTokens tokens.toList).placeholders)
    (told
      : cause = .unknownKey path.format (some position)
        ∨ ∃ actual, cause = .kindMismatch path.format .scalar actual (some position))
    : Reports text tokens cause
  | loop {path : Path} {binding : String} {position : Position} {cause : Error}
    (points : PointsAt text position (.loopStart path binding))
    (listed : path.format ∈ (Outline.ofTokens tokens.toList).loops)
    (told
      : cause = .unknownKey path.format (some position)
        ∨ ∃ actual, cause = .kindMismatch path.format .list actual (some position))
    : Reports text tokens cause
  | outOfSteps {token : Token} (member : token ∈ tokens) (budget : Nat)
    : Reports text tokens (.outOfSteps budget token.position)

/-- Rendering the tokens of a text against any root within any budget stops with an error that
points at the live tag it comes of and that the outline lists, or because the steps are spent.
-/
theorem reports_of_renderTokens {text : String} {tokens : Array Token}
    (tokenized : tokenize text = .ok tokens) (root : Table) (budget : Nat) {stop : Stop}
    (failed : renderTokens tokens root budget = .error stop)
    : ∃ cause, stop = .error cause ∧ Reports text.toList tokens cause := by
  obtain ⟨cause, rfl⟩ := exists_cause_of_renderTokens tokenized failed
  obtain ⟨token, member, raises⟩ := Run.exists_raises_of_complete failed
  refine ⟨cause, rfl, ?_⟩
  cases raises with
  | unknownKey path position =>
      exact .placeholder (pointsAt_of_mem tokenized member rfl)
        (Outline.mem_placeholders member.val) (.inl rfl)
  | notAScalar path position actual =>
      exact .placeholder (pointsAt_of_mem tokenized member rfl)
        (Outline.mem_placeholders member.val) (.inr ⟨actual, rfl⟩)
  | unknownSource path binding body position =>
      exact .loop (pointsAt_of_mem tokenized member rfl) (Outline.mem_loops member.val) (.inl rfl)
  | notAList path binding body position actual =>
      exact .loop (pointsAt_of_mem tokenized member rfl) (Outline.mem_loops member.val)
        (.inr ⟨actual, rfl⟩)
  | outOfSteps token budget => exact .outOfSteps member budget

/-- In the second turn of the outer loop the source of the inner one is a text. The escaped tag, the
literals and the turn before have no part in where the error is told.
-/
theorem reports_of_renderTokens_inner
    : let text :=
        "\\\x7b\x7bx\x7d\x7d\x7b\x7beach xs |x|\x7d\x7d\n\x7b\x7beach x.ys |y|\x7d\x7d\x7b\x7b/each\x7d\x7d\x7b\x7b/each\x7d\x7d"
      let tokens : Array Token :=
        #[.escaped "\x7b\x7bx\x7d\x7d" ⟨0, 1, 1⟩, .loopStart ["xs"] "x" ⟨2, 5⟩ ⟨6, 1, 7⟩,
          .literal "\n" ⟨21, 1, 22⟩, .loopStart ["x", "ys"] "y" ⟨4, 4⟩ ⟨22, 2, 1⟩,
          .loopEnd 3 ⟨39, 2, 18⟩, .loopEnd 1 ⟨48, 2, 27⟩]
      let item (ys : Value) : Value := .table [("ys", ys)]
      let root : Table := [("xs", .list [item (.list []), item (.scalar (.string "s"))])]
      let cause : Error := .kindMismatch "x.ys" .list .string (some ⟨22, 2, 1⟩)
      tokenize text = .ok tokens
        ∧ renderTokens tokens root 7 = .error (.error cause)
        ∧ Reports text.toList tokens cause := by
  intro text tokens item root cause
  have tokenized : tokenize text = .ok tokens := by cbv
  have failed : renderTokens tokens root 7 = .error (.error cause) := rfl
  obtain ⟨_, ⟨⟩, reports⟩ := reports_of_renderTokens tokenized root 7 failed
  exact ⟨tokenized, failed, reports⟩

end Stencil.Template
