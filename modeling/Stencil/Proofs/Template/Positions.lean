import Mathlib
import Stencil.Diagnostic
import Stencil.Proofs.Template.PieceTokens
import Stencil.Proofs.Text.LineFeeds

/-! The positions of tokens and of what is wrong with a template text. A scan asks for the
positions of its pieces from the left to the right, so that a tracker of lines answers them
exactly, and no other position gets into a token or into an error.
-/

namespace Stencil.Template

open Stencil.Text

/-- The position that an error names. -/
def Error.position? : Error → Option Position
  | unclosedTag _ position => some position
  | unclosedLoop _ position => some position
  | strayLoopEnd position => some position
  | invalidTag _ position => some position
  | unknownKey _ position? => position?
  | kindMismatch _ _ _ position? => position?
  | outOfSteps _ position => some position

/-- The diagnostic of an error points at the position that the error names. -/
theorem Error.place?_diagnostic (cause : Error)
    : cause.diagnostic.facts?.map TemplateFacts.place?
      = some (cause.position?.map Position.place) := by
  cases cause <;> rfl

-----------------------------------------------------------------------------------------
-- Pieces
-----------------------------------------------------------------------------------------

namespace Piece

/-- What stands before the opening delimiter, less the backslash that escapes it, is a start of
the text.
-/
theorem exists_tagPosition_eq (position : Position) (before : List Char)
    : ∃ start, start <+: before ∧ tagPosition position before = position.after start := by
  unfold tagPosition
  split
  · exact ⟨_, List.dropLast_prefix before, rfl⟩
  · exact ⟨_, List.prefix_rfl, rfl⟩

/-- The piece of a literal stands where the literal starts. -/
theorem position_of_mem_ofLiteral {literal : List Char} {position : Position}
    {piece : Piece × Position} (member : piece ∈ ofLiteral literal position)
    : piece.2 = position := by
  unfold Piece.ofLiteral at member
  split at member
  · cases member
  · rw [List.mem_singleton.1 member]

/-- Every piece of a scan stands behind a start of the text, by induction on the scan. -/
theorem Scanned.exists_start {position : Position} {text : List Char}
    {pieces : List (Piece × Position)} (h : Scanned position text pieces)
    : ∀ piece ∈ pieces, ∃ start, start <+: text ∧ piece.2 = position.after start := by
  have ofLiteral {text literal : List Char} {position : Position} {piece : Piece × Position}
      (member : piece ∈ ofLiteral literal position)
      : ∃ start, start <+: text ∧ piece.2 = position.after start :=
    ⟨[], List.nil_prefix, position_of_mem_ofLiteral member⟩
  induction h with
  | literal absent => exact fun piece => ofLiteral
  | @unclosed position text before after opens absent =>
      obtain ⟨start, starts, eq⟩ := exists_tagPosition_eq position before
      have starts : start <+: text := starts.trans ⟨_, by simpa using opens.whole.symm⟩
      intro piece member
      rcases List.mem_append.1 member with member | member
      · exact ofLiteral member
      · obtain rfl := List.mem_singleton.1 member
        exact ⟨start, starts, eq⟩
  | @closed position text before after content rest pieces opens closes _ ih =>
      obtain ⟨start, starts, eq⟩ := exists_tagPosition_eq position before
      have starts : start <+: text := starts.trans ⟨_, by simpa using opens.whole.symm⟩
      have whole : text = throughTag before content ++ rest := by
        rw [opens.whole, closes.whole]
        simp [throughTag]
      intro piece member
      rcases List.mem_append.1 member with member | member
      · exact ofLiteral member
      · rcases List.mem_cons.1 member with rfl | member
        · exact ⟨start, starts, eq⟩
        · obtain ⟨later, laterStarts, laterEq⟩ := ih piece member
          refine ⟨throughTag before content ++ later, ?_, by rw [laterEq, Position.after_append]⟩
          rw [whole]
          exact (List.prefix_append_right_inj _).2 laterStarts

/-- No piece of a scan stands before the scan starts. -/
theorem Scanned.offset_le {position : Position} {text : List Char}
    {pieces : List (Piece × Position)} (h : Scanned position text pieces)
    {piece : Piece × Position} (member : piece ∈ pieces)
    : position.offset ≤ piece.2.offset := by
  obtain ⟨start, -, eq⟩ := h.exists_start piece member
  rw [eq, Position.offset_after]
  omega

/-- A tag does not stand behind its own end. -/
theorem offset_tagPosition_le (position : Position) (before content : List Char)
    : (tagPosition position before).offset
      ≤ (position.after (throughTag before content)).offset := by
  obtain ⟨start, ⟨more, rfl⟩, eq⟩ := exists_tagPosition_eq position before
  rw [eq, Position.offset_after, Position.offset_after, units_eq_length, units_eq_length]
  simp only [throughTag, List.flatMap_append, List.length_append]
  omega

/-- The piece of a literal may come before pieces that do not stand before it. -/
theorem pairwise_ofLiteral_append {literal : List Char} {position : Position}
    {pieces : List (Piece × Position)}
    (increasing : pieces.Pairwise fun first second => first.2.offset ≤ second.2.offset)
    (behind : ∀ piece ∈ pieces, position.offset ≤ piece.2.offset)
    : (ofLiteral literal position ++ pieces).Pairwise
        fun first second => first.2.offset ≤ second.2.offset := by
  unfold ofLiteral
  split
  · exact increasing
  · exact .cons behind increasing

/-- The offsets of the pieces of a scan do not decrease, by induction on the scan. -/
theorem Scanned.pairwise_offset {position : Position} {text : List Char}
    {pieces : List (Piece × Position)} (h : Scanned position text pieces)
    : pieces.Pairwise fun first second => first.2.offset ≤ second.2.offset := by
  induction h with
  | literal absent => simpa using pairwise_ofLiteral_append .nil (by simp)
  | @unclosed position text before after opens absent =>
      refine pairwise_ofLiteral_append (List.pairwise_singleton _ _) fun piece member => ?_
      exact (Scanned.unclosed opens absent).offset_le (List.mem_append_right _ member)
  | @closed position text before after content rest pieces opens closes later ih =>
      refine pairwise_ofLiteral_append (.cons (fun piece member => ?_) ih) fun piece member => ?_
      · exact (offset_tagPosition_le position before content).trans (later.offset_le member)
      · exact (Scanned.closed opens closes later).offset_le (List.mem_append_right _ member)

/-- A tracker answers the positions of the pieces of a scan, and they are exact. -/
theorem Scanned.positions_eq {text : List Char} {pieces : List (Piece × Position)}
    (h : Scanned .start text pieces)
    : LineTracker.initial.positions (text.flatMap unitsOf) (pieces.map fun piece => piece.2.offset)
        = pieces.map Prod.snd
      ∧ ∀ piece ∈ pieces, piece.2.IsExact (text.flatMap unitsOf) := by
  have exact' : ∀ piece ∈ pieces, piece.2.IsExact (text.flatMap unitsOf) := by
    intro piece member
    obtain ⟨start, ⟨rest, rfl⟩, eq⟩ := h.exists_start piece member
    rw [eq]
    exact Position.isExact_after start rest
  refine ⟨?_, exact'⟩
  have answers : LineTracker.initial.positions (text.flatMap unitsOf)
      ((pieces.map Prod.snd).map Position.offset) = pieces.map Prod.snd := by
    refine LineTracker.positions_eq_of_isExact (LineTracker.knowsUpTo_initial _)
      (fun _ _ => Nat.zero_le _) (List.pairwise_map.2 h.pairwise_offset) fun position member => ?_
    obtain ⟨piece, found, rfl⟩ := List.mem_map.1 member
    exact exact' piece found
  rwa [List.map_map] at answers

end Piece

-----------------------------------------------------------------------------------------
-- Errors
-----------------------------------------------------------------------------------------

namespace Assembly

/-- A piece that cannot be added is blamed at its position. -/
theorem position?_of_add {assembly : Assembly} {piece : Piece × Position} {cause : Error}
    (failed : assembly.add piece = .error cause)
    : cause.position? = some piece.2 := by
  unfold add at failed
  split at failed
  · cases failed
  · cases failed
  · cases failed
    rfl
  · split at failed
    · cases failed
      rfl
    · cases failed
    · cases failed
    · unfold closeLoop at failed
      split at failed
      · cases failed
        rfl
      · cases failed

/-- A piece that is added may open a loop at its position. -/
theorem openLoops_of_add {assembly next : Assembly} {piece : Piece × Position}
    (added : assembly.add piece = .ok next)
    : ∀ loop ∈ next.openLoops, loop ∈ assembly.openLoops ∨ loop.position = piece.2 := by
  unfold add at added
  split at added
  · cases added
    exact fun loop => .inl
  · cases added
    exact fun loop => .inl
  · cases added
  · split at added
    · cases added
    · cases added
      exact fun loop => .inl
    · cases added
      intro loop member
      rcases List.mem_cons.1 member with rfl | member
      · exact .inr rfl
      · exact .inl member
    · unfold closeLoop at added
      split at added
      · cases added
      · rename_i innermost outer all
        cases added
        exact fun loop member => .inl (all ▸ List.mem_cons_of_mem _ member)

/-- Assembling pieces fails at the position of one of them, by induction on the pieces. -/
theorem position?_of_foldlM {assembly : Assembly} {pieces : List (Piece × Position)}
    {cause : Error} (failed : pieces.foldlM add assembly = .error cause)
    : ∃ piece ∈ pieces, cause.position? = some piece.2 := by
  induction pieces generalizing assembly with
  | nil => cases failed
  | cons piece pieces ih =>
      rw [List.foldlM_cons] at failed
      cases added : assembly.add piece with
      | error other =>
          rw [added] at failed
          cases failed
          exact ⟨piece, List.mem_cons_self, position?_of_add added⟩
      | ok next =>
          rw [added] at failed
          obtain ⟨blamed, member, named⟩ := ih failed
          exact ⟨blamed, List.mem_cons_of_mem _ member, named⟩

/-- The loops that assembled pieces leave open start at pieces, by induction on the pieces. -/
theorem openLoops_of_foldlM {assembly last : Assembly} {pieces : List (Piece × Position)}
    (assembled : pieces.foldlM add assembly = .ok last)
    : ∀ loop ∈ last.openLoops,
        loop ∈ assembly.openLoops ∨ ∃ piece ∈ pieces, loop.position = piece.2 := by
  induction pieces generalizing assembly with
  | nil =>
      cases assembled
      exact fun loop => .inl
  | cons piece pieces ih =>
      rw [List.foldlM_cons] at assembled
      cases added : assembly.add piece with
      | error cause =>
          rw [added] at assembled
          cases assembled
      | ok next =>
          rw [added] at assembled
          intro loop isOpen
          rcases ih assembled loop isOpen with before | ⟨start, member, starts⟩
          · rcases openLoops_of_add added loop before with before | starts
            · exact .inl before
            · exact .inr ⟨piece, List.mem_cons_self, starts⟩
          · exact .inr ⟨start, List.mem_cons_of_mem _ member, starts⟩

end Assembly

/-- What tokenizing fails with is placed at a piece of the text. -/
theorem position?_of_tokenize {text : String} {cause : Error}
    (failed : tokenize text = .error cause)
    : ∃ piece ∈ (Piece.scan text.toList).toList, cause.position? = some piece.2 := by
  simp only [tokenize, ← Array.foldlM_toList] at failed
  cases assembled : (Piece.scan text.toList).toList.foldlM Assembly.add .empty with
  | error other =>
      rw [assembled] at failed
      cases failed
      exact Assembly.position?_of_foldlM assembled
  | ok assembly =>
      rw [assembled] at failed
      change assembly.finish = .error cause at failed
      unfold Assembly.finish at failed
      split at failed
      · cases failed
      · rename_i outermost last
        cases failed
        rcases Assembly.openLoops_of_foldlM assembled outermost (List.mem_of_getLast? last)
          with none | ⟨start, member, starts⟩
        · cases none
        · exact ⟨start, member, congrArg some starts⟩

/-- The tokens of a text stand at its pieces, in order. -/
theorem positions_of_tokenize {text : String} {tokens : Array Token}
    (tokenized : tokenize text = .ok tokens)
    : tokens.toList.map Token.position = (Piece.scan text.toList).toList.map Prod.snd := by
  obtain ⟨pieces, scanned, made⟩ := forall₂_tokenize tokenized
  rw [Piece.toList_scan_eq_iff.2 scanned, ← List.forall₂_eq_eq_eq]
  refine List.forall₂_map_left_iff.2 (List.forall₂_map_right_iff.2 ?_)
  exact made.flip.imp fun _ _ makes => makes.2

/-- The positions of all tokens of a text, or the position of what is wrong with it, are answers
of a tracker that is asked for the offsets of the pieces in order, and all of its answers are
exact.
-/
theorem tokenize_positions_exact (text : String)
    : let units := text.toList.flatMap unitsOf
      let asked := (Piece.scan text.toList).toList.map fun piece => piece.2.offset
      let answers := LineTracker.initial.positions units asked
      (∀ position ∈ answers, position.IsExact units)
      ∧ (∀ tokens, tokenize text = .ok tokens → tokens.toList.map Token.position = answers)
      ∧ ∀ cause, tokenize text = .error cause
          → ∃ position ∈ answers, cause.position? = some position := by
  intro units asked answers
  have scanned : Piece.Scanned .start text.toList (Piece.scan text.toList).toList :=
    Piece.toList_scan_eq_iff.1 rfl
  obtain ⟨answered, exact'⟩ := scanned.positions_eq
  have answers_eq : answers = (Piece.scan text.toList).toList.map Prod.snd := answered
  rw [answers_eq]
  refine ⟨?_, fun tokens tokenized => positions_of_tokenize tokenized, fun cause failed => ?_⟩
  · intro position member
    obtain ⟨piece, found, rfl⟩ := List.mem_map.1 member
    exact exact' piece found
  · obtain ⟨piece, member, named⟩ := position?_of_tokenize failed
    exact ⟨piece.2, List.mem_map_of_mem member, named⟩

/-- Literals that start with a line feed, tags right behind one and tags that hold one: all of
them stand at exact positions, and so does a loop start without a loop end.
-/
theorem tokenize_positions_exact_lineFeeds
    : let text := "\n\x7b\x7bx\x7d\x7d\n\\\x7b\x7by\n\x7d\x7d\x7b\x7beach l |i|\n\x7d\x7d\n\x7b\x7b/each\x7d\x7d"
      let tokens : Array Token :=
        #[.literal "\n" ⟨0, 1, 1⟩, .placeholder ["x"] ⟨1, 2, 1⟩, .literal "\n" ⟨6, 2, 6⟩,
          .escaped "\x7b\x7by\n\x7d\x7d" ⟨7, 3, 1⟩, .loopStart ["l"] "i" ⟨5, 6⟩ ⟨14, 4, 3⟩,
          .literal "\n" ⟨29, 5, 3⟩, .loopEnd 4 ⟨30, 6, 1⟩]
      let unclosed := "\n\n \x7b\x7beach l |i|\x7d\x7d"
      tokenize text = .ok tokens
        ∧ (∀ token ∈ tokens.toList, token.position.IsExact (text.toList.flatMap unitsOf))
        ∧ tokenize unclosed = .error (.unclosedLoop "l" ⟨3, 3, 2⟩)
        ∧ Position.IsExact (unclosed.toList.flatMap unitsOf) ⟨3, 3, 2⟩ := by
  intro text tokens unclosed
  have tokenized : tokenize text = .ok tokens := by cbv
  have failed : tokenize unclosed = .error (.unclosedLoop "l" ⟨3, 3, 2⟩) := by cbv
  obtain ⟨exact', positions, -⟩ := tokenize_positions_exact text
  obtain ⟨exact'', -, blamed⟩ := tokenize_positions_exact unclosed
  refine ⟨tokenized, fun token member => ?_, failed, ?_⟩
  · have answered := List.mem_map_of_mem (f := Token.position) member
    rw [positions tokens tokenized] at answered
    exact exact' _ answered
  · obtain ⟨_, answered, ⟨⟩⟩ := blamed _ failed
    exact exact'' _ answered

end Stencil.Template
