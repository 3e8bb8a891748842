import Stencil.Proofs.Related
import Stencil.Proofs.Template.Scanning
import Stencil.Proofs.Template.TagSpelling
import Stencil.Template.Tokenize

/-! Each token is made of one piece of the text, in order. A loop end changes the span of an
earlier loop start, but not what that token is made of.
-/

namespace Stencil.Template

/-- What a token is made of, wherever it stands and wherever its loop leads. -/
inductive Piece.Makes : Piece → Token → Prop
  | literal {text : List Char} {position : Position}
    : Makes (.literal text) (.literal (String.ofList text) position)
  | escaped {content : List Char} {position : Position}
    : Makes (.escaped content)
        (.escaped (String.ofList (opening ++ content ++ closing)) position)
  | placeholder {content : List Char} {path : Path} {position : Position}
    (written : Tag.Written (.placeholder path) content)
    : Makes (.tag content) (.placeholder path position)
  | loopStart {content : List Char} {path : Path} {binding : String} {body : Span}
    {position : Position} (written : Tag.Written (.loopStart path binding) content)
    : Makes (.tag content) (.loopStart path binding body position)
  | loopEnd {content : List Char} {start : Nat} {position : Position}
    (written : Tag.Written .loopEnd content)
    : Makes (.tag content) (.loopEnd start position)

/-- A token is made of a piece and stands at its position. -/
def Piece.MakesAt (piece : Piece × Position) (token : Token) : Prop :=
  piece.1.Makes token ∧ token.position = piece.2

/-- Completing a loop start keeps what it is made of. -/
theorem Piece.Makes.closeBody {piece : Piece} {token : Token} (h : piece.Makes token)
    (stop : Nat)
    : piece.Makes (token.closeBody stop) := by
  cases h with
  | loopStart written => exact .loopStart written
  | literal => exact .literal
  | escaped => exact .escaped
  | placeholder written => exact .placeholder written
  | loopEnd written => exact .loopEnd written

theorem Token.position_closeBody (token : Token) (stop : Nat)
    : (token.closeBody stop).position = token.position := by
  cases token <;> rfl

namespace Assembly

/-- A piece more makes a token more. -/
theorem forall₂_add {assembly next : Assembly} {pieces : List (Piece × Position)}
    {piece : Piece × Position} (made : List.Forall₂ Piece.MakesAt pieces assembly.tokens.toList)
    (added : assembly.add piece = .ok next)
    : List.Forall₂ Piece.MakesAt (pieces ++ [piece]) next.tokens.toList := by
  have push {token : Token} (makes : Piece.MakesAt piece token)
      : List.Forall₂ Piece.MakesAt (pieces ++ [piece])
          (assembly.tokens.push token).toList := by
    rw [Array.toList_push]
    exact List.rel_append made (.cons makes .nil)
  obtain ⟨piece, position⟩ := piece
  cases piece with
  | literal text =>
      cases added
      exact push ⟨.literal, rfl⟩
  | escaped content =>
      cases added
      exact push ⟨.escaped, rfl⟩
  | unclosed escaped => cases added
  | tag content =>
      simp only [add] at added
      cases read : Tag.ofContent content with
      | error fault => simp [read] at added
      | ok tag =>
          have written := Tag.ofContent_eq_ok_iff.1 read
          rw [read] at added
          cases tag with
          | placeholder path =>
              cases added
              exact push ⟨.placeholder written, rfl⟩
          | loopStart path binding =>
              cases added
              exact push ⟨.loopStart written, rfl⟩
          | loopEnd =>
              simp only [closeLoop] at added
              split at added
              · cases added
              · cases added
                rw [Array.toList_push, Array.toList_modify]
                refine List.rel_append (forall₂_modify ?_ made _)
                  (.cons ⟨.loopEnd written, rfl⟩ .nil)
                exact fun piece token makes =>
                  ⟨makes.1.closeBody _, (token.position_closeBody _).trans makes.2⟩

/-- Assembled pieces make the tokens, by induction on the pieces. -/
theorem forall₂_foldlM {assembly last : Assembly} {pieces more : List (Piece × Position)}
    (made : List.Forall₂ Piece.MakesAt pieces assembly.tokens.toList)
    (added : more.foldlM add assembly = .ok last)
    : List.Forall₂ Piece.MakesAt (pieces ++ more) last.tokens.toList := by
  induction more generalizing assembly pieces with
  | nil =>
      cases added
      simpa using made
  | cons piece more ih =>
      rw [List.foldlM_cons] at added
      cases next : assembly.add piece with
      | error cause =>
          rw [next] at added
          cases added
      | ok between =>
          rw [next] at added
          simpa using ih (forall₂_add made next) added

end Assembly

/-- The tokens of a text are made of its pieces. -/
theorem forall₂_tokenize {text : String} {tokens : Array Token}
    (tokenized : tokenize text = .ok tokens)
    : ∃ pieces,
        Piece.Scanned .start text.toList pieces
        ∧ List.Forall₂ Piece.MakesAt pieces tokens.toList := by
  refine ⟨_, Piece.toList_scan_eq_iff.1 rfl, ?_⟩
  simp only [tokenize, ← Array.foldlM_toList] at tokenized
  cases assembled : (Piece.scan text.toList).toList.foldlM Assembly.add .empty with
  | error cause =>
      rw [assembled] at tokenized
      cases tokenized
  | ok assembly =>
      rw [assembled] at tokenized
      have none : List.Forall₂ Piece.MakesAt [] Assembly.empty.tokens.toList := .nil
      have made := Assembly.forall₂_foldlM none assembled
      have finished : assembly.finish = .ok tokens := tokenized
      unfold Assembly.finish at finished
      split at finished
      · cases finished
        exact made
      · cases finished

end Stencil.Template
