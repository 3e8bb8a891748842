import Mathlib
import Stencil.Proofs.Template.Backslashes
import Stencil.Proofs.Template.PieceTokens
import Stencil.Proofs.Text.Units

/-! Tokenizing loses nothing: the text is the sources of its tokens one after the other, each
source spelling its token, and the offsets of the tokens are those of their sources.
-/

namespace Stencil.Template

open Stencil.Text

namespace Token

def IsLiteral (token : Token) : Prop := ∃ text position, token = .literal text position

/-- A part of a template text spells a token, which may be the last one. Only the last literal is
spelled as it is: in any other one the run of backslashes at the end is doubled.
-/
def SpelledBy (isLast : Bool) (source : List Char) : Token → Prop
  | literal text _ =>
    source = if isLast then text.toList else Piece.doubleRun text.toList
  | escaped text _ => source = '\\' :: text.toList
  | placeholder path _ =>
    ∃ left right,
      Blanks left ∧ Blanks right
      ∧ source = opening ++ (left ++ path.format.toList ++ right) ++ closing
  | loopStart path binding _ _ =>
    ∃ content,
      Tag.Spelling (.loopStart path binding) (trim content)
      ∧ source = opening ++ content ++ closing
  | loopEnd _ _ =>
    ∃ left right,
      Blanks left ∧ Blanks right
      ∧ source = opening ++ (left ++ Tag.loopEndWord ++ right) ++ closing

end Token

/-- A text at a position is the sources of tokens. No source is empty, and neither is the text of
a literal, which no other literal follows.
-/
inductive Sourced : Position → List Token → List Char → Prop
  | nil (position : Position) : Sourced position [] []
  | cons {token : Token} {rest : List Token} {source text : List Char}
    (spelled : token.SpelledBy rest.isEmpty source) (source_ne_nil : source ≠ [])
    (literal_ne_nil : ∀ position, token ≠ .literal "" position)
    (apart : token.IsLiteral → ∀ next ∈ rest.head?, ¬ next.IsLiteral)
    (later : Sourced (token.position.after source) rest text)
    : Sourced token.position (token :: rest) (source ++ text)

namespace Piece

/-- The source of a closed tag: its delimiters and its content, behind the backslash that
escapes it.
-/
def tagSource (before content : List Char) : List Char :=
  escapeMark (escapes before) ++ opening ++ content ++ closing

/-- The text through a closed tag is the source of the literal and the source of the tag. -/
theorem throughTag_eq (before content : List Char)
    : throughTag before content = doubleRun (literalBefore before) ++ tagSource before content := by
  rw [throughTag, tagSource]
  conv => lhs; rw [eq_doubleRun before]
  simp only [List.append_assoc]

/-- A tag starts behind the source of the literal before it. -/
theorem tagPosition_eq (position : Position) (before : List Char)
    : tagPosition position before = position.after (doubleRun (literalBefore before)) := by
  have whole := eq_doubleRun before
  unfold tagPosition
  cases escaped : escapes before with
  | true =>
      rw [escaped] at whole
      conv => lhs; rw [whole]
      simp [escapeMark]
  | false =>
      rw [escaped] at whole
      conv => lhs; rw [whole]
      simp [escapeMark]

/-- The token of a closed tag is spelled by the source of the tag, and it is no literal. -/
theorem Makes.spelledBy {before content : List Char} {token : Token}
    (h : (ofTag before content).Makes token) (isLast : Bool)
    : token.SpelledBy isLast (tagSource before content) ∧ ¬ token.IsLiteral := by
  unfold ofTag at h
  unfold tagSource
  have tagText {tag : Tag} {core : List Char} (written : Tag.Written tag content)
      (only : ∀ core', Tag.Spelling tag core' → core' = core)
      : ∃ left right, Blanks left ∧ Blanks right
          ∧ escapeMark false ++ opening ++ content ++ closing
            = opening ++ (left ++ core ++ right) ++ closing := by
    obtain ⟨left, core', right, leftBlank, spelled, rightBlank, rfl⟩ := written
    obtain rfl := only core' spelled
    exact ⟨left, right, leftBlank, rightBlank, by simp [escapeMark]⟩
  cases escaped : escapes before with
  | true =>
      rw [if_pos escaped] at h
      cases h
      exact ⟨by simp [Token.SpelledBy, escapeMark], by simp [Token.IsLiteral]⟩
  | false =>
      rw [if_neg (by simp [escaped])] at h
      cases h with
      | placeholder written =>
          exact ⟨tagText written fun _ spelled => by cases spelled; rfl, by simp [Token.IsLiteral]⟩
      | loopStart written =>
          exact ⟨⟨content, Tag.written_iff.1 written, by simp [escapeMark]⟩,
            by simp [Token.IsLiteral]⟩
      | loopEnd written =>
          exact ⟨tagText written fun _ spelled => by cases spelled; rfl, by simp [Token.IsLiteral]⟩

/-- A tag with its source goes before tokens with theirs. -/
theorem MakesAt.sourced {position : Position} {before content rest : List Char}
    {token : Token} {tokens : List Token}
    (made : MakesAt (ofTag before content, tagPosition position before) token)
    (later : Sourced (position.after (throughTag before content)) tokens rest)
    : Sourced (tagPosition position before) (token :: tokens)
        (tagSource before content ++ rest) := by
  obtain ⟨makes, place⟩ := made
  change token.position = tagPosition position before at place
  obtain ⟨spelled, notLiteral⟩ := makes.spelledBy tokens.isEmpty
  rw [← place]
  refine .cons spelled (by simp [tagSource, opening]) ?_
    (fun literal => absurd literal notLiteral) ?_
  · rintro at' rfl
    exact notLiteral ⟨_, _, rfl⟩
  · rw [place, tagPosition_eq, ← Position.after_append, ← throughTag_eq]
    exact later

/-- A literal with its source goes before tokens with theirs, unless one follows that is a
literal, too.
-/
theorem sourced_literal {position : Position} {text source rest : List Char} {token : Token}
    {tokens : List Token} (made : MakesAt (.literal text, position) token)
    (nonempty : text ≠ []) (spelled : source = if tokens.isEmpty then text else doubleRun text)
    (apart : ∀ next ∈ tokens.head?, ¬ next.IsLiteral)
    (later : Sourced (position.after source) tokens rest)
    : Sourced position (token :: tokens) (source ++ rest) := by
  obtain ⟨makes, place⟩ := made
  change token.position = position at place
  have source_ne_nil : source ≠ [] := by
    rw [spelled]
    split
    · exact nonempty
    · simp [doubleRun, nonempty]
  cases makes
  cases place
  refine .cons (by simpa [Token.SpelledBy] using spelled) source_ne_nil ?_ (fun _ => apart) later
  intro at' eq
  simp only [Token.literal.injEq] at eq
  exact nonempty (String.ofList_eq_empty_iff.1 eq.1)

/-- The tokens of a scan have their sources in the text, by induction on the scan. -/
theorem Scanned.sourced {position : Position} {text : List Char}
    {pieces : List (Piece × Position)} {tokens : List Token}
    (scanned : Scanned position text pieces) (made : List.Forall₂ MakesAt pieces tokens)
    : Sourced position tokens text := by
  induction scanned generalizing tokens with
  | @literal position text absent =>
      unfold ofLiteral at made
      split at made
      · rename_i isEmpty
        cases made
        rw [List.isEmpty_iff.1 isEmpty]
        exact .nil position
      · rename_i nonempty
        obtain ⟨token, rest, here, none, rfl⟩ := List.forall₂_cons_left_iff.1 made
        cases none
        have sourced : Sourced position [token] (text ++ []) :=
          sourced_literal here (by simpa using nonempty) rfl (by simp) (.nil _)
        simpa using sourced
  | unclosed opens absent =>
      have last := List.forall₂_drop_append _ _ _ made.flip
      obtain ⟨token, _, here, _⟩ := List.forall₂_cons_right_iff.1 last
      cases here.1
  | @closed position text before after content rest pieces opens closes _ ih =>
      have whole
          : text = doubleRun (literalBefore before) ++ (tagSource before content ++ rest) := by
        rw [← List.append_assoc, ← throughTag_eq, opens.whole, closes.whole]
        simp [throughTag]
      unfold ofLiteral at made
      split at made
      · rename_i isEmpty
        obtain ⟨token, more, here, later, rfl⟩ := List.forall₂_cons_left_iff.1 made
        have sourced := MakesAt.sourced here (ih later)
        rw [tagPosition_eq] at sourced
        rw [whole]
        simpa [List.isEmpty_iff.1 isEmpty, doubleRun, trailingBackslashes] using sourced
      · rename_i nonempty
        obtain ⟨first, rest', here, made', rfl⟩ := List.forall₂_cons_left_iff.1 made
        obtain ⟨token, more, here', later, rfl⟩ := List.forall₂_cons_left_iff.1 made'
        have sourced := MakesAt.sourced here' (ih later)
        rw [tagPosition_eq] at sourced
        rw [whole]
        refine sourced_literal here (by simpa using nonempty) rfl ?_ sourced
        rintro next ⟨⟩
        exact (here'.1.spelledBy true).2

end Piece

-----------------------------------------------------------------------------------------
-- Sources by index
-----------------------------------------------------------------------------------------

/-- The first source starts at the position, and without tokens there is no text. -/
theorem Sourced.start {position : Position} {tokens : List Token} {text : List Char}
    (h : Sourced position tokens text)
    : match tokens[0]? with
      | some first => first.position = position
      | none => text = [] := by
  cases h <;> rfl

/-- No text is the sources of no tokens only. -/
theorem Sourced.eq_nil {position : Position} {tokens : List Token}
    (h : Sourced position tokens [])
    : tokens = [] := by
  generalize whole : [] = text at h
  cases h with
  | nil => rfl
  | cons spelled source_ne_nil => exact absurd (List.append_eq_nil_iff.1 whole.symm).1 source_ne_nil

/-- Every token has its source in the text, up to the place of the next token or to the end of
the text, by induction on the tokens.
-/
theorem Sourced.exists_source {position : Position} {tokens : List Token} {text : List Char}
    (h : Sourced position tokens text) {index : Nat} {token : Token}
    (here : tokens[index]? = some token)
    : ∃ before source after,
        text = before ++ source ++ after
        ∧ source ≠ []
        ∧ token.position = position.after before
        ∧ token.SpelledBy (index + 1 == tokens.length) source
        ∧ (match tokens[index + 1]? with
          | some next => next.position = position.after (before ++ source)
          | none => after = []) := by
  induction h generalizing index with
  | nil => simp at here
  | @cons first rest source text spelled source_ne_nil literal_ne_nil apart later ih =>
      cases index with
      | zero =>
          cases here
          refine ⟨[], source, text, by simp, source_ne_nil, rfl, ?_, ?_⟩
          · cases rest <;> simpa using spelled
          · simpa using later.start
      | succ index =>
          obtain ⟨before, source', after, rfl, nonempty, place, spelled', next⟩ := ih here
          refine ⟨source ++ before, source', after, by simp, nonempty, by simp [place],
            by simpa using spelled', ?_⟩
          simpa using next

/-- Tokens behind a position have offsets from that of the position on. -/
theorem Sourced.offset_le {position : Position} {tokens : List Token} {text : List Char}
    (h : Sourced position tokens text) {token : Token} (member : token ∈ tokens)
    : position.offset ≤ token.position.offset := by
  obtain ⟨index, here⟩ := List.getElem?_of_mem member
  obtain ⟨before, _, _, _, _, place, _⟩ := h.exists_source here
  rw [place, Position.offset_after]
  omega

/-- The offsets of tokens increase strictly, since no source is empty. -/
theorem Sourced.pairwise_offset {position : Position} {tokens : List Token} {text : List Char}
    (h : Sourced position tokens text)
    : tokens.Pairwise fun first second => first.position.offset < second.position.offset := by
  induction h with
  | nil => exact .nil
  | @cons first rest source text spelled source_ne_nil literal_ne_nil apart later ih =>
      refine .cons (fun second member => ?_) ih
      have behind := later.offset_le member
      rw [Position.offset_after] at behind
      have := units_pos source_ne_nil
      omega

/-- No literal is empty, and none follows another one. -/
theorem Sourced.literals {position : Position} {tokens : List Token} {text : List Char}
    (h : Sourced position tokens text) (index : Nat)
    : (∀ position, tokens[index]? ≠ some (.literal "" position))
      ∧ ∀ token next, tokens[index]? = some token → tokens[index + 1]? = some next
          → ¬ (token.IsLiteral ∧ next.IsLiteral) := by
  induction h generalizing index with
  | nil => simp
  | @cons first rest source text spelled source_ne_nil literal_ne_nil apart later ih =>
      cases index with
      | zero =>
          refine ⟨fun position eq => literal_ne_nil position (by simpa using eq), ?_⟩
          rintro token next ⟨⟩ follows ⟨literal, literal'⟩
          refine apart literal next ?_ literal'
          simpa [List.head?_eq_getElem?] using follows
      | succ index => simpa using ih index

/-- Where the source of the token at an index ends: at the next token or at the end of the text. -/
def sourceStop (text : List Char) (tokens : Array Token) (index : Nat) : Nat :=
  match tokens[index + 1]? with
  | some next => next.position.offset
  | none => units text

/-- The slice of the text from the place of a token to the next place is the source of the token. -/
theorem Sourced.exists_slice {tokens : Array Token} {text : List Char}
    (h : Sourced .start tokens.toList text) {index : Nat} {token : Token}
    (here : tokens[index]? = some token)
    : ∃ source,
        unitSlice text token.position.offset (sourceStop text tokens index)
          = source.flatMap unitsOf
        ∧ token.SpelledBy (index + 1 == tokens.size) source := by
  rw [← Array.getElem?_toList] at here
  obtain ⟨before, source, after, whole, _, place, spelled, next⟩ := h.exists_source here
  refine ⟨source, ?_, by simpa using spelled⟩
  have offset : ∀ part, (Position.start.after part).offset = units part := by
    intro part
    rw [Position.offset_after]
    exact Nat.zero_add _
  have stop : sourceStop text tokens index = units (before ++ source) := by
    rw [Array.getElem?_toList] at next
    unfold sourceStop
    split
    · rename_i following eq
      rw [eq] at next
      rw [next, offset]
    · rename_i eq
      rw [eq] at next
      rw [whole, next, List.append_nil]
  rw [stop, place, offset, whole, unitSlice_append]

/-- The tokens of a text with their offsets hold everything that stands in the text. -/
structure LosesNothing (text : List Char) (tokens : Array Token) : Prop where
  empty : text = [] → tokens = #[]
  first : text ≠ [] → ∃ token : Token, tokens[0]? = some token ∧ token.position.offset = 0
  increasing
    : ∀ (i j : Nat) (token later : Token),
        tokens[i]? = some token
        → tokens[j]? = some later
        → i < j
        → token.position.offset < later.position.offset
  sources
    : ∀ (i : Nat) (token : Token),
        tokens[i]? = some token
        → ∃ source,
            unitSlice text token.position.offset (sourceStop text tokens i)
              = source.flatMap unitsOf
            ∧ token.SpelledBy (i + 1 == tokens.size) source
  literals : ∀ (i : Nat) (position : Position), tokens[i]? ≠ some (Token.literal "" position)
  apart
    : ∀ (i : Nat) (token next : Token),
        tokens[i]? = some token
        → tokens[i + 1]? = some next
        → ¬ (token.IsLiteral ∧ next.IsLiteral)

/-- Tokenizing loses nothing: the slice of the text from a token to the next one spells the token,
and the slices are all of the text.
-/
theorem losesNothing_of_tokenize {text : String} {tokens : Array Token}
    (tokenized : tokenize text = .ok tokens)
    : LosesNothing text.toList tokens := by
  obtain ⟨pieces, scanned, made⟩ := forall₂_tokenize tokenized
  have sourced := scanned.sourced made
  refine { empty := ?_, first := ?_, increasing := ?_, sources := ?_, literals := ?_, apart := ?_ }
  · intro isEmpty
    rw [isEmpty] at sourced
    exact Array.toList_eq_nil_iff.1 sourced.eq_nil
  · intro nonempty
    have start := sourced.start
    rw [Array.getElem?_toList] at start
    cases first : tokens[0]? with
    | none =>
        rw [first] at start
        exact absurd start nonempty
    | some token =>
        rw [first] at start
        exact ⟨token, rfl, congrArg Position.offset start⟩
  · intro i j token later here there before
    have pairwise := List.pairwise_iff_getElem.1 sourced.pairwise_offset
    obtain ⟨hi, rfl⟩ := Array.getElem?_eq_some_iff.1 here
    obtain ⟨hj, rfl⟩ := Array.getElem?_eq_some_iff.1 there
    simpa using pairwise i j hi hj before
  · intro i token here
    exact sourced.exists_slice here
  · intro i
    simpa using (sourced.literals i).1
  · intro i
    simpa using (sourced.literals i).2

/-- A run of three backslashes leaves one in its literal and one to escape the tag, a run between
two tags is a literal of its own, and a run at the end stays as it is.
-/
theorem losesNothing_of_tokenize_runs
    : let text := "a\\\\\\\x7b\x7bq\x7d\x7d\\\\\x7b\x7b x \x7d\x7d\\\\"
      let tokens : Array Token :=
        #[.literal "a\\" ⟨0, 1, 1⟩, .escaped "\x7b\x7bq\x7d\x7d" ⟨3, 1, 4⟩,
          .literal "\\" ⟨9, 1, 10⟩, .placeholder ["x"] ⟨11, 1, 12⟩,
          .literal "\\\\" ⟨18, 1, 19⟩]
      tokenize text = .ok tokens ∧ LosesNothing text.toList tokens := by
  intro text tokens
  have tokenized : tokenize text = .ok tokens := by cbv
  exact ⟨tokenized, losesNothing_of_tokenize tokenized⟩

end Stencil.Template
