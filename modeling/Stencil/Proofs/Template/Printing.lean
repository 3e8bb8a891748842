import Mathlib.Data.List.Chain
import Stencil.Proofs.Template.Backslashes
import Stencil.Proofs.Template.Nesting
import Stencil.Proofs.Template.PieceTokens

/-! Printing tokens as a template text. Tokenizing the text gives the tokens back, up to their
positions, if each token can be printed, neighbours keep apart and loops have their spans.
-/

namespace Stencil.Template

open Stencil.Text

namespace Token

/-- The token without its place: at the start of a text. -/
def unplaced : Token → Token
  | literal text _ => literal text .start
  | escaped text _ => escaped text .start
  | placeholder path _ => placeholder path .start
  | loopStart path binding body _ => loopStart path binding body .start
  | loopEnd start _ => loopEnd start .start

/-- The text of a token, which may be the last one. In any other literal the run of backslashes at
the end is doubled.
-/
def printed (isLast : Bool) : Token → List Char
  | literal text _ => if isLast then text.toList else Piece.doubleRun text.toList
  | escaped text _ => '\\' :: text.toList
  | placeholder path _ => opening ++ path.format.toList ++ closing
  | loopStart path binding _ _ =>
    opening
      ++ (Tag.loopWord ++ [' '] ++ path.format.toList ++ [' ', '|'] ++ binding.toList ++ ['|'])
      ++ closing
  | loopEnd _ _ => opening ++ Tag.loopEndWord ++ closing

/-- What a token has to be for its text to stand for it. -/
def Printable : Token → Prop
  | literal text _ => text ≠ "" ∧ ¬ opening <:+: text.toList
  | escaped text _ =>
    ∃ content,
      text.toList = opening ++ content ++ closing
      ∧ FirstPlace closing (content ++ closing) content []
  | placeholder path _ => path.WellFormed ∧ path ≠ ["each"]
  | loopStart path binding _ _ => path.WellFormed ∧ Path.isName binding = true
  | loopEnd _ _ => True

/-- A token may stand directly before another one: two literals would be read as one, and an
opening brace at the end of a literal would be read as part of a live tag.
-/
def MayPrecede : Token → Token → Prop
  | literal _ _, literal _ _ => False
  | literal _ _, escaped _ _ => True
  | literal text _, _ => text.toList.getLast? ≠ some '\x7b'
  | _, _ => True

/-- Only a literal may not follow an empty one. -/
theorem literal_or_mayPrecede (token : Token)
    : (∃ text position, token = literal text position)
      ∨ MayPrecede (literal "" .start) token := by
  cases token with
  | literal text position => exact Or.inl ⟨text, position, rfl⟩
  | escaped text position => exact Or.inr trivial
  | placeholder path position => exact Or.inr (by simp [MayPrecede])
  | loopStart path binding body position => exact Or.inr (by simp [MayPrecede])
  | loopEnd start position => exact Or.inr (by simp [MayPrecede])

end Token

/-- The text of tokens, one after the other. -/
def printTokens : List Token → List Char
  | [] => []
  | token :: rest => token.printed rest.isEmpty ++ printTokens rest

/-- Tokens whose text stands for them. Loop brackets match, and their spans are those of the
blocks that they make.
-/
structure Printable (tokens : List Token) : Prop where
  each : ∀ token ∈ tokens, token.Printable
  apart : tokens.IsChain Token.MayPrecede
  matched : ∃ blocks : Blocks, tokens = blocks.tokensFrom 0

-----------------------------------------------------------------------------------------
-- The printed text of one tag
-----------------------------------------------------------------------------------------

/-- A content without closing braces is all that stands before the closing delimiter. -/
theorem firstPlace_closing {content : List Char} (absent : '\x7d' ∉ content)
    : FirstPlace closing (content ++ closing) content [] := by
  have place : FirstPlace closing (content ++ closing ++ []) content [] :=
    firstPlace_of_not_mem absent []
  simpa using place

/-- The header of a loop as it is printed is a spelling of the loop. -/
theorem spelling_loopStart {path : Path} {binding : String} (path_wf : path.WellFormed)
    (isName : Path.isName binding = true)
    : Tag.Spelling (.loopStart path binding)
        (Tag.loopWord ++ [' '] ++ path.format.toList ++ [' ', '|'] ++ binding.toList ++ ['|']) := by
  have blank : Blanks [' '] := by simp [Blanks]; decide
  have none : Blanks [] := by simp [Blanks]
  simpa using Tag.Spelling.loopStart path_wf isName blank (by simp) blank none none

/-- The printed header of a loop has no closing brace. -/
theorem brace_not_mem_header {path : Path} {binding : String} (path_wf : path.WellFormed)
    (isName : Path.isName binding = true)
    : '\x7d' ∉ Tag.loopWord ++ [' '] ++ path.format.toList ++ [' ', '|'] ++ binding.toList
        ++ ['|'] := by
  have notInPath : '\x7d' ∉ path.format.toList := path_wf.not_mem (by decide) (by decide)
  have notInBinding : '\x7d' ∉ binding.toList := Path.not_mem_of_isName isName (by decide)
  have notInWord : '\x7d' ∉ Tag.loopWord := by decide
  simp [notInPath, notInBinding, notInWord]

/-- A printable token that may follow a literal is printed as a closed tag, and the piece of that
tag makes the token. The literal does not run into the delimiter of the tag.
-/
theorem Token.Printable.exists_content {token : Token} (h : token.Printable) {text : String}
    {place : Position} (may : MayPrecede (literal text place) token)
    : ∃ escaped content,
        (∀ isLast, token.printed isLast = Piece.escapeMark escaped ++ opening ++ content ++ closing)
        ∧ FirstPlace closing (content ++ closing) content []
        ∧ (∀ before, Piece.escapes before = escaped → (Piece.ofTag before content).Makes token)
        ∧ (escaped = false → text.toList.getLast? ≠ some '\x7b') := by
  cases token with
  | literal text position => exact may.elim
  | escaped text position =>
      obtain ⟨content, eq, closes⟩ := h
      refine ⟨true, content, fun _ => by simp [printed, eq, Piece.escapeMark], closes, ?_, by simp⟩
      intro before odd
      have whole : text = String.ofList (opening ++ content ++ closing) := by
        rw [← eq, String.ofList_toList]
      rw [Piece.ofTag, odd, whole]
      exact .escaped
  | placeholder path position =>
      refine ⟨false, path.format.toList, fun _ => by simp [printed, Piece.escapeMark],
        firstPlace_closing (h.1.not_mem (by decide) (by decide)), ?_, fun _ => may⟩
      intro before even
      rw [Piece.ofTag, even]
      exact .placeholder (Tag.Spelling.placeholder h.1 h.2).written
  | loopStart path binding body position =>
      refine ⟨false, _, fun _ => by simp [printed, Piece.escapeMark],
        firstPlace_closing (brace_not_mem_header h.1 h.2), ?_, fun _ => may⟩
      intro before even
      rw [Piece.ofTag, even]
      exact .loopStart (spelling_loopStart h.1 h.2).written
  | loopEnd start position =>
      refine ⟨false, Tag.loopEndWord, fun _ => by simp [printed, Piece.escapeMark],
        firstPlace_closing (by decide), ?_, fun _ => may⟩
      intro before even
      rw [Piece.ofTag, even]
      exact .loopEnd Tag.Spelling.loopEnd.written

-----------------------------------------------------------------------------------------
-- Scanning a printed text
-----------------------------------------------------------------------------------------

namespace Piece

/-- The literal before a tag has no opening delimiter, and it makes none with that of the tag: what
is put behind it are backslashes, and without any it does not end with a brace.
-/
theorem not_infix_before {text : List Char} {escaped : Bool} (absent : ¬ opening <:+: text)
    (apart : escaped = false → text.getLast? ≠ some '\x7b')
    : ¬ opening <:+: doubleRun text ++ escapeMark escaped ++ ['\x7b'] := by
  rw [doubleRun_append_escapeMark]
  have behind (n : Nat) : ¬ opening <:+: text ++ List.replicate n '\\' := by
    induction n with
    | zero => simpa using absent
    | succ n ih =>
        rw [List.replicate_succ', ← List.append_assoc]
        exact not_infix_pair_append ih (fun same => absurd same (by decide))
  refine not_infix_pair_append (behind _) (fun _ => ?_)
  cases count : trailingBackslashes text + escaped.toNat with
  | zero =>
      have live : escaped = false := by
        cases escaped with
        | true => simp at count
        | false => rfl
      simpa using apart live
  | succ n => simp [List.replicate_succ']

/-- A literal and a closed tag are scanned as they are printed. -/
theorem scanned_tag {position : Position} {text content rest : List Char} {escaped : Bool}
    {pieces : List (Piece × Position)} (absent : ¬ opening <:+: text)
    (apart : escaped = false → text.getLast? ≠ some '\x7b')
    (closes : FirstPlace closing (content ++ closing) content [])
    (later
      : Scanned (position.after (throughTag (doubleRun text ++ escapeMark escaped) content)) rest
          pieces)
    : Scanned position
        (doubleRun text ++ (escapeMark escaped ++ opening ++ content ++ closing ++ rest))
        (ofLiteral text position
          ++ (ofTag (doubleRun text ++ escapeMark escaped) content,
              tagPosition position (doubleRun text ++ escapeMark escaped)) :: pieces) := by
  have opens := firstPlace_pair (not_infix_before absent apart) (content ++ closing ++ rest)
  have scanned := Scanned.closed opens (closes.replaceAfter rest) later
  rw [(literalBefore_doubleRun text escaped).1] at scanned
  simpa [opening] using scanned

/-- A literal and a token that may follow it are scanned as they are printed, if the tokens behind
them are.
-/
theorem exists_scanned_tag {token : Token} {rest : List Token} (printable : token.Printable)
    {text : String} {place : Position} (may : Token.MayPrecede (.literal text place) token)
    (absent : ¬ opening <:+: text.toList)
    (later
      : ∀ position, ∃ pieces,
          Scanned position (printTokens rest) pieces
          ∧ List.Forall₂ (fun piece => Makes piece.1) pieces rest)
    (position : Position)
    : ∃ pieces,
        Scanned position (doubleRun text.toList ++ printTokens (token :: rest))
          (ofLiteral text.toList position ++ pieces)
        ∧ List.Forall₂ (fun piece => Makes piece.1) pieces (token :: rest) := by
  obtain ⟨escaped, content, printed, closes, makes, apart⟩ := printable.exists_content may
  obtain ⟨pieces, scanned, made⟩ :=
    later (position.after (throughTag (doubleRun text.toList ++ escapeMark escaped) content))
  have odd := (literalBefore_doubleRun text.toList escaped).2
  have whole := scanned_tag absent apart closes scanned
  rw [printTokens, printed]
  exact ⟨_, whole, .cons (makes _ odd) made⟩

/-- Printed tokens are scanned as pieces that make them. By recursion over the tokens: a literal
is scanned with the tag behind it or at the end of the text, any other token behind no literal.
-/
theorem exists_scanned (tokens : List Token) (each : ∀ token ∈ tokens, token.Printable)
    (apart : tokens.IsChain Token.MayPrecede) (position : Position)
    : ∃ pieces,
        Scanned position (printTokens tokens) pieces
        ∧ List.Forall₂ (fun piece => Makes piece.1) pieces tokens := by
  match tokens with
  | [] =>
      have absent : ¬ opening <:+: [] := by decide
      exact ⟨_, .literal absent, .nil⟩
  | token :: rest =>
      rcases token.literal_or_mayPrecede with ⟨text, place, rfl⟩ | may
      · obtain ⟨nonempty, absent⟩ := each (.literal text place) (by simp)
        have literal : ofLiteral text.toList position = [(.literal text.toList, position)] := by
          simp [ofLiteral, nonempty]
        have makes : (Piece.literal text.toList).Makes (.literal text place) := by
          conv => rhs; rw [← String.ofList_toList (s := text)]
          exact .literal
        -- Only the last literal is printed as it is, so it has no tag to be scanned with.
        match rest with
        | [] =>
            refine ⟨ofLiteral text.toList position, ?_, ?_⟩
            · simpa [printTokens, Token.printed] using Scanned.literal absent
            · rw [literal]
              exact .cons makes .nil
        | next :: rest =>
            obtain ⟨may, chain⟩ := List.isChain_cons_cons.1 apart
            obtain ⟨pieces, scanned, made⟩ :=
              exists_scanned_tag (each next (by simp)) may absent
                (exists_scanned rest (fun token member => each token (by simp [member])) chain.tail)
                position
            refine ⟨_, scanned, ?_⟩
            rw [literal]
            exact .cons makes made
      · have absent : ¬ opening <:+: "".toList := by decide
        obtain ⟨pieces, scanned, made⟩ :=
          exists_scanned_tag (each token (by simp)) may absent
            (exists_scanned rest (fun token member => each token (by simp [member])) apart.tail)
            position
        exact ⟨_, scanned, made⟩

end Piece

-----------------------------------------------------------------------------------------
-- Assembling the pieces of a printed text
-----------------------------------------------------------------------------------------

namespace Nest

/-- A piece that makes the token of a leaf is added as that leaf, up to its position. -/
theorem add_of_makes_leaf {piece : Piece × Position} {first : Leaf}
    (makes : piece.1.Makes first.token) (nest : Nest)
    : ∃ added : Leaf,
        nest.add piece = .ok (nest.push added)
        ∧ added.token.unplaced = first.token.unplaced := by
  obtain ⟨piece, place⟩ := piece
  cases first with
  | literal text position =>
      cases makes
      exact ⟨_, rfl, rfl⟩
  | escaped text position =>
      cases makes
      exact ⟨_, rfl, rfl⟩
  | placeholder path position =>
      cases makes with
      | placeholder written =>
          refine ⟨.placeholder path place, ?_, rfl⟩
          simp only [add, Tag.ofContent_eq_ok_iff.2 written]

/-- A piece that makes a loop start opens the loop. -/
theorem add_of_makes_loopStart {piece : Piece × Position} {path : Path} {binding : String}
    {body : Span} {position : Position}
    (makes : piece.1.Makes (.loopStart path binding body position)) (nest : Nest)
    : nest.add piece = .ok (nest.openLoop path binding piece.2) := by
  obtain ⟨piece, place⟩ := piece
  cases makes with
  | loopStart written => simp only [add, Tag.ofContent_eq_ok_iff.2 written]

/-- A piece that makes a loop end closes the innermost loop. -/
theorem add_of_makes_loopEnd {piece : Piece × Position} {start : Nat} {position : Position}
    (makes : piece.1.Makes (.loopEnd start position)) (nest : Nest)
    : nest.add piece = nest.closeLoop piece.2 := by
  obtain ⟨piece, place⟩ := piece
  cases makes with
  | loopEnd written => simp only [add, Tag.ofContent_eq_ok_iff.2 written]

/-- The pieces of a loop are added as the loop, if those of its body are added as its body. -/
theorem foldlM_loop {opener closer : Piece × Position} {inside : List (Piece × Position)}
    {path : Path} {binding : String} {span : Span} {start stop : Position} {index : Nat}
    {nest : Nest} {body : Blocks}
    (opens : opener.1.Makes (.loopStart path binding span start))
    (closes : closer.1.Makes (.loopEnd index stop))
    (folded
      : inside.foldlM add (nest.openLoop path binding opener.2)
        = .ok ⟨(nest.openLoop path binding opener.2).levels, body⟩)
    : (opener :: (inside ++ [closer])).foldlM add nest
      = .ok ⟨nest.levels, nest.current ++ .loop path binding opener.2 body closer.2 .done⟩ := by
  have closed : [closer].foldlM add ⟨(nest.openLoop path binding opener.2).levels, body⟩
      = .ok ⟨nest.levels, nest.current ++ .loop path binding opener.2 body closer.2 .done⟩ := by
    rw [List.foldlM_cons, add_of_makes_loopEnd closes]
    rfl
  rw [List.foldlM_cons, add_of_makes_loopStart opens]
  calc (inside ++ [closer]).foldlM add (nest.openLoop path binding opener.2)
      = [closer].foldlM add ⟨(nest.openLoop path binding opener.2).levels, body⟩ := by
        rw [List.foldlM_append, folded]
        rfl
    _ = _ := closed

/-- Pieces that make the tokens of blocks are added as those blocks, up to the positions. By
induction over the blocks; a loop is opened, filled with its body and closed.
-/
theorem foldlM_of_makes {blocks : Blocks} {index : Nat} {pieces : List (Piece × Position)}
    (made : List.Forall₂ (fun piece => Piece.Makes piece.1) pieces (blocks.tokensFrom index))
    (nest : Nest)
    : ∃ added : Blocks,
        pieces.foldlM add nest = .ok ⟨nest.levels, nest.current ++ added⟩
        ∧ added.size = blocks.size
        ∧ ∀ index,
            (added.tokensFrom index).map Token.unplaced
              = (blocks.tokensFrom index).map Token.unplaced := by
  induction blocks generalizing index pieces nest with
  | done =>
      cases made
      exact ⟨.done, by simp [pure, Except.pure], rfl, fun _ => rfl⟩
  | leaf first rest ih =>
      obtain ⟨piece, more, makes, later, rfl⟩ := List.forall₂_cons_right_iff.1 made
      obtain ⟨leaf, pushed, sameLeaf⟩ := add_of_makes_leaf makes nest
      obtain ⟨added, folded, sameSize, sameRest⟩ := ih later (nest.push leaf)
      refine ⟨.leaf leaf added, ?_, by simp [sameSize], fun index => ?_⟩
      · rw [List.foldlM_cons, pushed]
        simp only [push, Blocks.append_assoc, Blocks.leaf_append, Blocks.done_append] at folded
        exact folded
      · simp [Blocks.tokensFrom, sameLeaf, sameRest]
  | loop path binding start body stop rest bodyIH ih =>
      obtain ⟨opener, more, opens, later, rfl⟩ := List.forall₂_cons_right_iff.1 made
      obtain ⟨inside, behind, madeInside, madeBehind, rfl⟩ := forall₂_append_right later
      obtain ⟨closer, last, closes, madeLast, rfl⟩ := List.forall₂_cons_right_iff.1 madeBehind
      obtain ⟨body', foldedBody, sameSize, sameBody⟩ :=
        bodyIH madeInside (nest.openLoop path binding opener.2)
      obtain ⟨rest', foldedRest, sameSize', sameRest⟩ :=
        ih madeLast ⟨nest.levels,
          nest.current ++ .loop path binding opener.2 body' closer.2 .done⟩
      refine ⟨.loop path binding opener.2 body' closer.2 rest', ?_, ?_, fun index => ?_⟩
      · have whole : opener :: (inside ++ closer :: last)
            = (opener :: (inside ++ [closer])) ++ last := by
          simp
        rw [whole, List.foldlM_append, foldlM_loop opens closes foldedBody]
        simp only [Blocks.append_assoc, Blocks.loop_append, Blocks.done_append] at foldedRest
        exact foldedRest
      · simp [sameSize, sameSize']
      · simp [Blocks.tokensFrom, Token.unplaced, sameBody, sameRest, sameSize]

end Nest

/-- Printing tokens and tokenizing the text gives the tokens back, up to their positions. -/
theorem tokenize_printTokens {tokens : List Token} (printable : Printable tokens)
    : ∃ read,
        tokenize (String.ofList (printTokens tokens)) = .ok read
        ∧ read.toList.map Token.unplaced = tokens.map Token.unplaced := by
  obtain ⟨each, apart, blocks, rfl⟩ := printable
  obtain ⟨pieces, scanned, made⟩ := Piece.exists_scanned _ each apart .start
  obtain ⟨added, folded, _, same⟩ := Nest.foldlM_of_makes made .empty
  refine ⟨(added.tokensFrom 0).toArray, Nest.tokenize_eq_ok_iff.2 ⟨added, ?_, rfl⟩, same 0⟩
  rw [Nest.ofText, String.toList_ofList, Piece.toList_scan_eq_iff.2 scanned]
  exact folded

/-- A literal backslash before an escaped tag and a loop over a placeholder are printed with three
backslashes in a row, and are read again.
-/
theorem tokenize_printTokens_backslash
    : let tokens : List Token :=
        [.literal "\\" .start, .escaped "\x7b\x7bx\x7d\x7d" .start,
          .loopStart ["xs"] "x" ⟨3, 4⟩ .start, .placeholder ["x", "n"] .start,
          .loopEnd 2 .start]
      Printable tokens
        ∧ String.ofList (printTokens tokens)
          = "\\\\\\\x7b\x7bx\x7d\x7d\x7b\x7beach xs |x|\x7d\x7d\x7b\x7bx.n\x7d\x7d\x7b\x7b/each\x7d\x7d"
        ∧ ∃ read,
            tokenize (String.ofList (printTokens tokens)) = .ok read
            ∧ read.toList.map Token.unplaced = tokens.map Token.unplaced := by
  intro tokens
  have escapes : (Token.escaped "\x7b\x7bx\x7d\x7d" .start).Printable :=
    ⟨['x'], by decide, firstPlace_closing (by decide)⟩
  have each : ∀ token ∈ tokens, token.Printable := by
    simp only [tokens, List.forall_mem_cons]
    refine ⟨⟨by decide, by decide⟩, escapes, ⟨⟨by decide, by decide⟩, by decide⟩,
      ⟨⟨by decide, by decide⟩, by decide⟩, trivial, by simp⟩
  have apart : tokens.IsChain Token.MayPrecede := by
    simp [tokens, Token.MayPrecede]
  have matched : tokens = Blocks.tokensFrom 0 (.leaf (.literal "\\" .start)
      (.leaf (.escaped "\x7b\x7bx\x7d\x7d" .start)
        (.loop ["xs"] "x" .start (.leaf (.placeholder ["x", "n"] .start) .done) .start .done))) :=
    rfl
  have printable : Printable tokens := ⟨each, apart, _, matched⟩
  exact ⟨printable, by cbv, tokenize_printTokens printable⟩

end Stencil.Template
